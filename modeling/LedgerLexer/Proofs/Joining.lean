/-
Two sources in one. Where the first ends with a line feed and leaves no literal open,
the whole is lexed as the first and then the second, with one exception: blanks that
open the content of the second become an indent when content came before. A session that
has lexed the first differs from a new one only by its errors and by having seen content.
-/

import LedgerLexer.Proofs.TextBehind

namespace LedgerLexer

/-- The first content behind these stages follows a run of blanks that begins its line,
and its text begins with no carriage return. A token stands where its match begins. -/
structure OpensIndented (before : List Stage) (blank content : Stage) : Prop where
  onlyBreaks : ∀ token ∈ tokensOf before, token.kind = .lineBreak
  lineStart : textOf before = [] ∨ EndsLine (textOf before)
  isBlank : blank.piece.finding = .blank
  isContent : ∃ token, content.token = some token ∧ token.kind ≠ .lineBreak
  noReturn : content.piece.text.head? ≠ some '\r'

namespace Session

theorem startsContent_cons_iff (first : Char) (later : Text) :
    startsContent (first :: later) = true ↔ first ≠ '\n' ∧ first ≠ '\r' ∧ first ≠ ';' := by
  simp only [startsContent, isLineEnd, Bool.and_eq_true, Bool.not_eq_true', Bool.or_eq_false_iff,
    bne_iff_ne, beq_eq_false_iff_ne, ne_eq, and_assoc]

theorem rest_of_nextCut? (session : Session) (cut : Cut) (here : session.nextCut? = some cut) :
    ∃ first others, cut.piece.text = first :: others ∧
      session.rest = first :: (others ++ cut.rest) := by
  obtain ⟨nonempty, whole⟩ := Cut.next?_splits _ _ _ here
  obtain ⟨first, others, pieceText⟩ := List.exists_cons_of_ne_nil nonempty
  refine ⟨first, others, pieceText, ?_⟩
  rw [← whole, pieceText]
  rfl

private theorem stageOf_content (session : Session) (cut : Cut) (here : session.nextCut? = some cut)
    (notBlank : ∀ first later, session.rest = first :: later → isBlank first = false)
    (content : startsContent session.rest = true) :
    cut.piece.finding ≠ .blank ∧
      ∃ token, (session.stageOf cut).token = some token ∧ token.kind ≠ .lineBreak := by
  have form := session.nextCut?_form cut here
  obtain ⟨first, others, pieceText, restForm⟩ := session.rest_of_nextCut? cut here
  rw [restForm, startsContent_cons_iff] at content
  obtain ⟨notFeed, notReturn, notComment⟩ := content
  have noBlank : cut.piece.finding ≠ .blank := by
    intro found
    have blankFirst := List.all_eq_true.1 (form.all_blank found) first
      (by rw [pieceText]; exact List.mem_cons_self ..)
    rw [notBlank first _ restForm] at blankFirst
    cases blankFirst
  refine ⟨noBlank, ?_⟩
  unfold stageOf
  have taking := session.take_taking cut
  generalize session.take cut = pulled at taking
  cases taking with
  | indent found _ => exact absurd found noBlank
  | silent found =>
      rcases found with ⟨found, _⟩ | found
      · exact absurd found noBlank
      · obtain ⟨body, commentText, _⟩ := form.comment_text found
        rw [pieceText] at commentText
        exact absurd (List.cons.inj commentText).1 notComment
  | @token kind value found =>
      refine ⟨_, rfl, ?_⟩
      intro breaks
      change kind = .lineBreak at breaks
      rw [breaks] at found
      rcases form.lineBreak_text found with feed | both
      · rw [pieceText] at feed
        exact notFeed (List.cons.inj feed).1
      · rw [pieceText] at both
        exact notReturn (List.cons.inj both).1
  | fault found =>
      refine ⟨_, rfl, ?_⟩
      intro breaks
      cases breaks

private theorem startsContent_of_stageOf (session : Session) (cut : Cut)
    (here : session.nextCut? = some cut)
    (content : ∃ token, (session.stageOf cut).token = some token ∧ token.kind ≠ .lineBreak)
    (noReturn : cut.piece.text.head? ≠ some '\r') : startsContent session.rest = true := by
  obtain ⟨first, others, pieceText, restForm⟩ := session.rest_of_nextCut? cut here
  obtain ⟨token, present, notBreak⟩ := content
  have notReturn : first ≠ '\r' := by
    intro same
    rw [pieceText, same] at noReturn
    exact noReturn rfl
  have notFeed : first ≠ '\n' := by
    intro same
    rw [nextCut?, restForm, same, Cut.next?_lineFeed] at here
    have found : cut.piece.finding = .token .lineBreak none :=
      congrArg (fun cut => cut.piece.finding) (Option.some.inj here).symm
    simp only [stageOf, take, found] at present
    cases present
    exact notBreak rfl
  have notComment : first ≠ ';' := by
    intro same
    rw [nextCut?, restForm, same, Cut.next?_semicolon] at here
    have found : cut.piece.finding = .comment :=
      congrArg (fun cut => cut.piece.finding) (Option.some.inj here).symm
    simp only [stageOf, take, found] at present
    cases present
  rw [restForm, startsContent_cons_iff]
  exact ⟨notFeed, notReturn, notComment⟩

/-- Blanks at the start of a line with content behind them: an indent, if content came
before. -/
structure BeginsContent (session : Session) (cut : Cut) : Prop where
  isBlank : cut.piece.finding = .blank
  lineStart : session.atLineStart = true
  content : startsContent cut.rest = true

theorem BeginsContent.next_stage {session : Session} {cut : Cut}
    (begins : session.BeginsContent cut)
    (here : session.nextCut? = some cut) :
    ∃ content later, (session.take cut).session.trail.stages = content :: later ∧
      content.piece.finding ≠ .blank ∧ content.piece.text.head? ≠ some '\r' ∧
      ∃ token, content.token = some token ∧ token.kind ≠ .lineBreak := by
  have form := session.nextCut?_form cut here
  have content := begins.content
  cases next : (session.take cut).session.nextCut? with
  | none =>
      have atEnd := (Cut.next?_eq_none_iff _ _).1 next
      rw [take_rest] at atEnd
      rw [atEnd] at content
      cases content
  | some following =>
      refine ⟨_, _, by rw [trail_of_cut _ following next], ?_⟩
      rw [← session.take_rest cut] at content
      have read := (session.take cut).session.stageOf_content following next (by
        intro first later restForm
        rw [take_rest] at restForm
        exact form.no_blank_behind_layout (Or.inl begins.isBlank) first later restForm) content
      refine ⟨read.1, ?_, read.2⟩
      intro return_
      obtain ⟨others, pieceText⟩ := List.head?_eq_some_iff.1 return_
      rw [← (Cut.next?_splits _ _ _ next).2] at content
      change startsContent (following.piece.text ++ following.rest) = true at content
      change following.piece.text = _ at pieceText
      rw [pieceText] at content
      cases content

theorem take_of_beginsContent {session : Session} {cut : Cut} (begins : session.BeginsContent cut)
    (seen : session.seenContent = true) :
    session.take cut = ⟨some ⟨.indent, session.line, cut.piece.text, none⟩, session.pass cut⟩ := by
  have indented : session.indents cut = true := by
    rw [indents, begins.lineStart, seen, begins.content]
    rfl
  rw [take, begins.isBlank]
  exact if_pos indented

/-! ### A session that has lexed something before -/

def remember (session : Session) (earlier : Array LexError) (seen : Bool) : Session :=
  { session with
    seenContent := seen || session.seenContent
    errors := earlier ++ session.errors }

variable (earlier : Array LexError) (seen : Bool)

private theorem take_remember (session : Session) (cut : Cut)
    (quiet : seen = true → session.seenContent = false → ¬ session.BeginsContent cut) :
    (session.remember earlier seen).take cut =
      ⟨(session.take cut).token, (session.take cut).session.remember earlier seen⟩ := by
  unfold take
  split
  · rename_i found
    have sameIndents : (session.remember earlier seen).indents cut = session.indents cut := by
      unfold indents
      change (session.atLineStart && (seen || session.seenContent) && startsContent cut.rest) = _
      cases seen with
      | false => rw [Bool.false_or]
      | true =>
          cases shown : session.seenContent with
          | true => rfl
          | false =>
              rw [Bool.and_false, Bool.false_and, Bool.or_false, Bool.and_true]
              apply Bool.eq_false_iff.2
              intro both
              rw [Bool.and_eq_true] at both
              exact quiet rfl shown ⟨found, both.1, both.2⟩
    unfold takeBlank
    rw [sameIndents]
    split <;> rfl
  · rfl
  · unfold takeToken remember pass
    simp only [Bool.or_assoc]
  · unfold takeFault remember pass
    simp only [Array.append_push, Bool.or_true]

/-- A run goes the same way behind a source, as long as no blanks in it would open the
first content. -/
theorem Reaches.remember {session last : Session} {taken : List Stage}
    (run : Reaches session taken last)
    (quiet : seen = true → ∀ before middle cut behind, Reaches session before middle →
      middle.nextCut? = some cut → taken = before ++ middle.stageOf cut :: behind →
      middle.seenContent = false → ¬ middle.BeginsContent cut) :
    Reaches (session.remember earlier seen) taken (last.remember earlier seen) := by
  induction run with
  | here session => exact .here _
  | @step session last cut later next _ ih =>
      have same := session.take_remember earlier seen cut (fun isSeen fresh =>
        quiet isSeen [] session cut later (.here session) next rfl fresh)
      have goesOn := ih (fun isSeen before middle following behind front here split =>
        quiet isSeen (session.stageOf cut :: before) middle following behind (.step next front) here
          (by rw [split]; rfl))
      have sameStage : (session.remember earlier seen).stageOf cut = session.stageOf cut := by
        unfold stageOf
        rw [same]
      have sameCut : (session.remember earlier seen).nextCut? = some cut := next
      rw [← sameStage]
      refine .step sameCut ?_
      rw [same]
      exact goesOn

private theorem endsLine_of_take_atLineStart (session : Session) (cut : Cut)
    (here : session.nextCut? = some cut)
    (starts : (session.take cut).session.atLineStart = true) : EndsLine cut.piece.text := by
  have form := session.nextCut?_form cut here
  rw [take_atLineStart] at starts
  cases found : cut.piece.finding with
  | token kind value =>
      rw [found] at starts
      cases kind with
      | lineBreak =>
          rcases form.lineBreak_text found with text | text
          all_goals
            rw [text]
            rfl
      | _ => cases starts
  | _ =>
      rw [found] at starts
      cases starts

theorem Reaches.lineStart_of_atLineStart {session last : Session} {taken : List Stage}
    (run : Reaches session taken last) (starts : last.atLineStart = true) :
    textOf taken = [] ∨ EndsLine (textOf taken) := by
  induction run with
  | here session => exact Or.inl rfl
  | @step session last cut later next goesOn ih =>
      refine Or.inr ?_
      change EndsLine (cut.piece.text ++ textOf later)
      rcases ih starts with empty | ends
      · obtain rfl := goesOn.eq_nil_of_textOf empty
        cases goesOn
        rw [textOf_nil, List.append_nil]
        exact session.endsLine_of_take_atLineStart cut next starts
      · unfold EndsLine at ends ⊢
        rw [List.getLast?_append, ends]
        rfl

/-- A session over the second source that has lexed the first takes up the same pieces
and hands out the same tokens, unless content of the first turns blanks into an indent. -/
theorem trail_remember (session : Session)
    (quiet : seen = true → ∀ before blank content behind,
      session.trail.stages = before ++ blank :: content :: behind →
      ¬ OpensIndented before blank content) :
    (session.remember earlier seen).trail =
      ⟨session.trail.stages, session.trail.session.remember earlier seen⟩ := by
  obtain ⟨run, atEnd⟩ := session.reaches_trail
  have remembered : Reaches (session.remember earlier seen) session.trail.stages
      (session.trail.session.remember earlier seen) := by
    refine run.remember earlier seen ?_
    intro isSeen before middle cut behind front here split fresh begins
    obtain ⟨content, later, ahead, _, noReturn, isContent⟩ := begins.next_stage here
    have stages := congrArg Trail.stages front.trail_eq
    rw [trail_of_cut middle cut here, ahead] at stages
    refine quiet isSeen before (middle.stageOf cut) content later stages
      ⟨?_, front.lineStart_of_atLineStart begins.lineStart, begins.isBlank, isContent, noReturn⟩
    have unseen := front.seenContent_eq
    rw [fresh, eq_comm, Bool.or_eq_false_iff, List.any_eq_false] at unseen
    intro token member
    simpa using unseen.2 token member
  exact remembered.trail_of_end atEnd

private theorem quiet_before_content (session middle : Session) (front behind : List Stage)
    (cut : Cut) (blank content : Stage) (after : List Stage) (run : Reaches session front middle)
    (here : middle.nextCut? = some cut)
    (split : session.trail.stages =
      front ++ middle.stageOf cut :: (behind ++ blank :: content :: after))
    (onlyBreaks : ∀ token ∈ tokensOf behind, token.kind = .lineBreak)
    (isBlank : blank.piece.finding = .blank) : ¬ middle.BeginsContent cut := by
  intro begins
  obtain ⟨next, later, ahead, notBlank, _, token, present, notBreak⟩ := begins.next_stage here
  have stages := congrArg Trail.stages run.trail_eq
  rw [trail_of_cut middle cut here, ahead, split] at stages
  have rest := (List.cons.inj (List.append_cancel_left stages)).2
  cases behind with
  | nil =>
      rw [(List.cons.inj rest).1] at isBlank
      exact notBlank isBlank
  | cons first others =>
      rw [(List.cons.inj rest).1] at onlyBreaks
      refine notBreak (onlyBreaks token ?_)
      rw [tokensOf_cons, present]
      exact List.mem_cons_self ..

private theorem Reaches.remember_before_content {session middle : Session}
    {before behind : List Stage} {blank content : Stage} (front : Reaches session before middle)
    (split : session.trail.stages = before ++ blank :: content :: behind)
    (opens : OpensIndented before blank content) :
    Reaches (session.remember earlier true) before (middle.remember earlier true) := by
  refine front.remember earlier true ?_
  intro _ start turn cut rest run here whole _
  refine session.quiet_before_content turn start rest cut blank content behind run here ?_ ?_
    opens.isBlank
  · rw [split, whole, List.append_assoc]
    rfl
  · intro token member
    apply opens.onlyBreaks token
    rw [whole, tokensOf_append, tokensOf_cons]
    exact List.mem_append_right _ (List.mem_append_right _ member)

private theorem Reaches.remember_from_content {session last : Session} {content : Stage}
    {behind : List Stage}
    (run : Reaches session (content :: behind) last) (within : session.atLineStart = false)
    (isContent : ∃ token, content.token = some token ∧ token.kind ≠ .lineBreak) :
    Reaches (session.remember earlier seen) (content :: behind) (last.remember earlier seen) := by
  refine run.remember earlier seen ?_
  intro _ start turn cut rest front here whole unseen begins
  cases start with
  | nil =>
      cases front
      have lineStart := begins.lineStart
      rw [within] at lineStart
      cases lineStart
  | cons first others =>
      have same : first = content := (List.cons.inj whole).1.symm
      obtain ⟨token, present, notBreak⟩ := isContent
      rw [front.seenContent_eq, Bool.or_eq_false_iff, List.any_eq_false] at unseen
      refine unseen.2 token ?_ (by simpa using notBreak)
      rw [tokensOf_cons, same, present]
      exact List.mem_cons_self ..

private theorem take_blank_of_unseen (session : Session) (cut : Cut)
    (isBlank : cut.piece.finding = .blank)
    (unseen : session.seenContent = false) : session.take cut = ⟨none, session.pass cut⟩ := by
  have noIndent : session.indents cut = false := by
    rw [indents, unseen, Bool.and_false, Bool.false_and]
  simp only [take, isBlank, takeBlank, noIndent, Bool.false_eq_true, if_false]

private theorem take_remember_blank (session : Session) (cut : Cut)
    (begins : session.BeginsContent cut) :
    (session.remember earlier true).take cut =
      ⟨some ⟨.indent, session.line, cut.piece.text, none⟩,
        (session.pass cut).remember earlier true⟩ := by
  have recalled : (session.remember earlier true).BeginsContent cut :=
    ⟨begins.isBlank, begins.lineStart, begins.content⟩
  exact take_of_beginsContent recalled rfl

theorem Reaches.atLineStart_of_lineStart {session last : Session} {taken : List Stage}
    (run : Reaches session taken last) (begins : session.atLineStart = true)
    (lineStart : textOf taken = [] ∨ EndsLine (textOf taken)) : last.atLineStart = true := by
  rcases lineStart with empty | ends
  · obtain rfl := run.eq_nil_of_textOf empty
    cases run
    exact begins
  · exact run.atLineStart_of_endsLine ends

private theorem trail_remember_indented (session : Session) (begins : session.atLineStart = true)
    (fresh : session.seenContent = false) (before behind : List Stage) (blank content : Stage)
    (split : session.trail.stages = before ++ blank :: content :: behind)
    (opens : OpensIndented before blank content) :
    blank.token = none ∧
    (session.remember earlier true).trail =
      ⟨before ++ ⟨blank.piece, some ⟨.indent, session.line + lineFeeds (textOf before),
          blank.piece.text, none⟩⟩ :: content :: behind,
        session.trail.session.remember earlier true⟩ := by
  obtain ⟨run, atEnd⟩ := session.reaches_trail
  rw [split] at run
  obtain ⟨middle, front, back⟩ := run.split
  have unseen : middle.seenContent = false := by
    rw [front.seenContent_eq, fresh, Bool.false_or, List.any_eq_false]
    intro token member
    simpa using opens.onlyBreaks token member
  cases back with
  | @step _ _ cut _ here goesOn =>
      have contentAhead : startsContent cut.rest = true := by
        cases goesOn with
        | step following _ =>
            rw [← middle.take_rest cut]
            exact startsContent_of_stageOf _ _ following opens.isContent opens.noReturn
      have silent := middle.take_blank_of_unseen cut opens.isBlank unseen
      have indented := middle.take_remember_blank earlier cut
        ⟨opens.isBlank, front.atLineStart_of_lineStart begins opens.lineStart, contentAhead⟩
      rw [silent] at goesOn
      have blankRecalled : Reaches (middle.remember earlier true)
          ((middle.remember earlier true).stageOf cut :: content :: behind)
          (session.trail.session.remember earlier true) := by
        have sameCut : (middle.remember earlier true).nextCut? = some cut := here
        refine .step sameCut ?_
        rw [indented]
        exact goesOn.remember_from_content earlier true rfl opens.isContent
      have whole := (front.remember_before_content earlier split opens).trans blankRecalled
      refine ⟨by rw [stageOf, silent], ?_⟩
      rw [whole.trail_of_end atEnd, stageOf, indented, front.line_eq]
      rfl

private theorem session_remember (session : Session) (begins : session.atLineStart = true)
    (fresh : session.seenContent = false) :
    (session.remember earlier seen).trail.session =
      session.trail.session.remember earlier seen := by
  by_cases quiet : seen = true → ∀ before blank content behind,
      session.trail.stages = before ++ blank :: content :: behind →
      ¬ OpensIndented before blank content
  · rw [session.trail_remember earlier seen quiet]
  · simp only [Classical.not_forall, Classical.not_not] at quiet
    obtain ⟨isSeen, before, blank, content, behind, split, opens⟩ := quiet
    subst isSeen
    rw [(session.trail_remember_indented earlier begins fresh before behind blank content split
      opens).2]

/-! ### The first source before the second -/

/-- Every unterminated literal is reported. -/
theorem settled_of_errors (session : Session)
    (closed : ∀ error ∈ session.finish.session.errors,
      error.message ≠ "Unterminated string".toList)
    (stage : Stage) (member : stage ∈ session.trail.stages) : stage.piece.finding.IsSettled := by
  intro lexeme found
  obtain ⟨_, middle, cut, _, _, rfl⟩ := session.exists_cut_of_mem stage member
  change cut.piece.finding = _ at found
  have reported : (middle.stageOf cut).error? =
      some (Fault.unterminatedString.toError middle.line) := by
    simp only [stageOf, Stage.error?, take, found]
    rfl
  refine closed (Fault.unterminatedString.toError middle.line) ?_ rfl
  rw [finish_eq_trail, Array.mem_def, session.reaches_trail.1.errors_eq]
  refine List.mem_append_right _ (List.mem_filterMap.2 ⟨_, ?_, reported⟩)
  exact member

/-- Whether some token is content: anything but a line break. -/
def hasContent (tokens : List Token) : Bool :=
  tokens.any (fun token => token.kind != .lineBreak)

private theorem extend_eq_remember (front back : Text) (options : Options) (firstLine : Nat)
    (ends : front = [] ∨ EndsLine front) :
    (start front options firstLine).finish.session.extend back =
      (start back options (firstLine + lineFeeds front)).remember
        (start front options firstLine).finish.session.errors
        (hasContent (start front options firstLine).finish.tokens) := by
  have text := (start front options firstLine).textOf_trail
  obtain ⟨run, atEnd⟩ := (start front options firstLine).reaches_trail
  have lineStart : (start front options firstLine).trail.session.atLineStart = true := by
    rcases ends with rfl | ends
    · rw [trail_of_none _ rfl]
      rfl
    · refine run.atLineStart_of_endsLine ?_
      rw [text]
      exact ends
  have line := run.line_eq
  have seen := run.seenContent_eq
  rw [text] at line
  rw [finish_eq_trail]
  unfold extend remember
  rw [Session.mk.injEq]
  refine ⟨run.options_eq, ?_, line, lineStart, ?_, Array.append_empty.symm⟩
  · rw [atEnd]
    rfl
  · rw [seen]
    exact Bool.or_comm _ _

private theorem finish_of_append (front back : Text) (options : Options) (firstLine : Nat)
    (ends : front = [] ∨ EndsLine front)
    (closed : ∀ error ∈ (start front options firstLine).finish.session.errors,
      error.message ≠ "Unterminated string".toList) :
    let first := (start front options firstLine).finish
    let rest := (start back options (firstLine + lineFeeds front)).remember first.session.errors
      (hasContent first.tokens)
    (start (front ++ back) options firstLine).finish =
      ⟨first.tokens ++ tokensOf rest.trail.stages, rest.trail.session⟩ := by
  intro first rest
  have firstFinished := (start front options firstLine).finish_eq_trail
  have run := (start front options firstLine).reaches_trail.1.extend back ends
    (settled_of_errors _ closed)
  have boundary : (start front options firstLine).trail.session.extend back = rest := by
    have joined := extend_eq_remember front back options firstLine ends
    rw [firstFinished] at joined
    exact joined.trans (by rw [← firstFinished])
  rw [boundary] at run
  have whole : (start (front ++ back) options firstLine).trail = _ := run.trail_eq
  have firstTokens : first.tokens = tokensOf (start front options firstLine).trail.stages :=
    (tokensOf_trail _).symm
  rw [finish_eq_trail, whole, firstTokens]
  exact congrArg (Finished.mk · _) (tokensOf_append _ _)

/-- Lexing one source behind another. When the first ends its last line and leaves no
literal open, the errors are those of the first and then of the second, and so are the
tokens, except for one indent: blanks that open the content of the second become a token
when the first holds content. -/
theorem finish_append (front back : Text) (options : Options) (firstLine : Nat)
    (ends : front = [] ∨ front.getLast? = some '\n')
    (closed : ∀ error ∈ (start front options firstLine).finish.session.errors,
      error.message ≠ "Unterminated string".toList) :
    let first := (start front options firstLine).finish
    let second := (start back options (firstLine + lineFeeds front)).finish
    let both := (start (front ++ back) options firstLine).finish
    let stages := (start back options (firstLine + lineFeeds front)).trail.stages
    both.session.errors = first.session.errors ++ second.session.errors ∧
    textOf stages = back ∧
    tokensOf stages = second.tokens ∧
    (hasContent first.tokens = true → ∀ before blank content behind,
      stages = before ++ blank :: content :: behind → OpensIndented before blank content →
        second.tokens = tokensOf before ++ tokensOf (content :: behind) ∧
        both.tokens = first.tokens ++ tokensOf before ++
          ⟨.indent, firstLine + lineFeeds (front ++ textOf before), blank.piece.text, none⟩ ::
            tokensOf (content :: behind)) ∧
    ((hasContent first.tokens = true → ∀ before blank content behind,
      stages = before ++ blank :: content :: behind → ¬ OpensIndented before blank content) →
        both.tokens = first.tokens ++ second.tokens) := by
  intro first second both stages
  have joined : both = _ := finish_of_append front back options firstLine ends closed
  have secondFinished : second = _ := finish_eq_trail _
  have noneBefore : (start back options (firstLine + lineFeeds front)).seenContent = false := rfl
  have secondTokens : tokensOf stages = second.tokens := tokensOf_trail _
  have plain := trail_remember first.session.errors (hasContent first.tokens)
    (start back options (firstLine + lineFeeds front))
  have indented := trail_remember_indented first.session.errors
    (start back options (firstLine + lineFeeds front)) rfl noneBefore
  refine ⟨?_, textOf_trail _, secondTokens, ?_, ?_⟩
  · rw [joined, session_remember _ _ _ rfl noneBefore, secondFinished]
    rfl
  · intro content before blank opening behind split opens
    obtain ⟨missing, trail⟩ := indented before behind blank opening split opens
    constructor
    · rw [← secondTokens, split, tokensOf_append, tokensOf_cons, missing]
      rfl
    · rw [joined, content, trail]
      simp only [tokensOf_append, tokensOf_cons, Option.toList_some, List.append_assoc,
        lineFeeds_append, start, Nat.add_assoc]
      rfl
  · intro none
    rw [joined, plain none]
    exact congrArg (first.tokens ++ ·) secondTokens

/-- A currency on a line of its own makes the blank before the next one an indent. -/
theorem finish_append_currencies :
    let first := (start ['U', 'S', 'D', '\n'] Options.standard 1).finish
    let second := (start [' ', 'E', 'U', 'R'] Options.standard 2).finish
    (['U', 'S', 'D', '\n'] = [] ∨ ['U', 'S', 'D', '\n'].getLast? = some '\n') ∧
    (∀ error ∈ first.session.errors, error.message ≠ "Unterminated string".toList) ∧
    (start ['U', 'S', 'D', '\n', ' ', 'E', 'U', 'R'] Options.standard 1).finish.tokens =
      first.tokens ++ ⟨.indent, 2, [' '], none⟩ :: second.tokens := by
  intro first second
  have firstRun : Reaches (start ['U', 'S', 'D', '\n'] Options.standard 1) _ _ :=
    .step rfl (.step rfl (.here _))
  have firstFinished : first = _ := firstRun.finish_of_end rfl
  have content : hasContent first.tokens = true := by
    rw [firstFinished]
    rfl
  have closed : ∀ error ∈ first.session.errors, error.message ≠ "Unterminated string".toList := by
    have noErrors : first.session.errors = #[] := by
      rw [firstFinished]
      rfl
    intro error member
    rw [noErrors] at member
    exact absurd member (Array.not_mem_empty error)
  have secondRun : Reaches (start [' ', 'E', 'U', 'R'] Options.standard 2) _ _ :=
    .step rfl (.step rfl (.here _))
  have secondStages := congrArg Trail.stages (secondRun.trail_of_end rfl)
  obtain ⟨_, _, _, indented, _⟩ :=
    finish_append ['U', 'S', 'D', '\n'] [' ', 'E', 'U', 'R'] Options.standard 1 (Or.inr rfl) closed
  have joined := indented content [] _ _ [] secondStages
    ⟨nofun, Or.inl rfl, rfl, ⟨_, rfl, nofun⟩, nofun⟩
  have secondTokens : second.tokens = _ := joined.1
  rw [tokensOf_nil, List.append_nil] at joined
  refine ⟨Or.inr rfl, closed, joined.2.trans ?_⟩
  rw [secondTokens]
  rfl

end Session

end LedgerLexer
