/-
Another layout for the same source. Any blanks may be written for a stretch of blanks,
and for a comment another one without quotes and backslashes, or nothing where no carriage
return stands before it. A session over the new text takes up the same pieces, but for the
comments that are gone, so tokens, errors and lines stay as they were, and an indent shows
the blanks that were written for it.
-/

import LedgerLexer.Proofs.Exchange

namespace LedgerLexer

/-- What may be written for a piece, where this text stands before it in its source. -/
inductive Rewritten (before : Text) (piece : Piece) : Text → Prop where
  | kept : Rewritten before piece piece.text
  | blanks {run : Text} (found : piece.finding = .blank) (nonempty : run ≠ [])
      (blank : run.all isBlank = true) : Rewritten before piece run
  | comment {body : Text} (found : piece.finding = .comment)
      (quiet : body.all isQuietPart = true) : Rewritten before piece (';' :: body)
  | dropped (found : piece.finding = .comment) (notReturn : before.getLast? ≠ some '\r') :
      Rewritten before piece []

/-- One run of new text for each stage, where this text stands before the first. -/
inductive Relaid : Text → List Stage → List Text → Prop where
  | nil (before : Text) : Relaid before [] []
  | cons {before run : Text} {stage : Stage} {stages : List Stage} {runs : List Text}
      (written : Rewritten before stage.piece run)
      (later : Relaid (before ++ stage.piece.text) stages runs) :
      Relaid before (stage :: stages) (run :: runs)

def Stage.tokenOver (stage : Stage) (run : Text) : Option Token :=
  stage.token.map (fun token =>
    if token.kind = .indent then { token with lexeme := run } else token)

def tokensOver (stages : List Stage) (runs : List Text) : List Token :=
  (List.zipWith Stage.tokenOver stages runs).filterMap id

private theorem tokensOver_cons (stage : Stage) (run : Text) (stages : List Stage)
    (runs : List Text) :
    tokensOver (stage :: stages) (run :: runs) =
      (stage.tokenOver run).toList ++ tokensOver stages runs := by
  unfold tokensOver
  rw [List.zipWith_cons_cons, List.filterMap_cons]
  cases stage.tokenOver run <;> rfl

namespace Rewritten

variable {before run : Text} {piece : Piece}

private theorem of_blank (written : Rewritten before piece run) (found : piece.finding = .blank)
    (nonempty : piece.text ≠ []) (blank : piece.text.all isBlank = true) :
    run ≠ [] ∧ run.all isBlank = true := by
  cases written with
  | kept => exact ⟨nonempty, blank⟩
  | blanks _ runNonempty runBlank => exact ⟨runNonempty, runBlank⟩
  | comment comment _ => rw [found] at comment; cases comment
  | dropped comment _ => rw [found] at comment; cases comment

private theorem of_comment {body : Text} (written : Rewritten before piece run)
    (found : piece.finding = .comment) (text : piece.text = ';' :: body)
    (sameLine : body.all isCommentPart = true) :
    run = [] ∨ ∃ other, run = ';' :: other ∧ other.all isCommentPart = true := by
  cases written with
  | kept => exact Or.inr ⟨body, text, sameLine⟩
  | blanks blank _ _ => rw [found] at blank; cases blank
  | @comment other _ quiet =>
      refine Or.inr ⟨other, rfl, List.all_eq_true.2 fun char member => ?_⟩
      exact isCommentPart_of_isQuietPart char (List.all_eq_true.1 quiet char member)
  | dropped _ _ => exact Or.inl rfl

private theorem of_content (written : Rewritten before piece run) (noBlank : piece.finding ≠ .blank)
    (noComment : piece.finding ≠ .comment) : run = piece.text := by
  cases written with
  | kept => rfl
  | blanks found _ _ => exact absurd found noBlank
  | comment found _ => exact absurd found noComment
  | dropped found _ => exact absurd found noComment

theorem exchange {lines : Nat} {text other : Text} {cut : Cut}
    (written : Rewritten before cut.piece run) (here : Cut.next? lines text = some cut)
    (exchange : Exchangeable (before ++ cut.piece.text) cut.rest other) :
    Exchangeable before text (run ++ other) := by
  have form := Cut.next?_form lines text cut here
  obtain ⟨nonempty, whole⟩ := Cut.next?_splits lines text cut here
  rw [← whole]
  cases written with
  | kept => exact exchange.append nonempty
  | blanks found runNonempty runBlank =>
      exact exchange.blanks nonempty (form.all_blank found) runNonempty runBlank
  | comment found quiet =>
      obtain ⟨body, commentText, sameLine, ends⟩ := form.comment_text found
      rw [commentText] at exchange ⊢
      exact exchange.comments ends sameLine quiet
  | dropped found notReturn =>
      obtain ⟨body, commentText, sameLine, ends⟩ := form.comment_text found
      rw [commentText] at exchange ⊢
      exact exchange.dropped ends sameLine notReturn

end Rewritten

namespace Session

private theorem exchangeable_of_relaid (session : Session) (before : Text) (runs : List Text)
    (relaid : Relaid before session.trail.stages runs) :
    Exchangeable before session.rest runs.flatten := by
  generalize ahead : session.trail.stages = stages at relaid
  induction relaid generalizing session with
  | nil before =>
      have text := session.textOf_trail
      rw [ahead] at text
      rw [← text]
      exact .nil before
  | cons written _ ih =>
      obtain ⟨cut, here, rfl, _, later⟩ := session.cut_of_trail _ _ ahead
      have exchange := ih (session.take cut).session later
      rw [take_rest] at exchange
      exact written.exchange here exchange

def withLayout (session : Session) (rest : Text) (atLineStart : Bool) : Session :=
  { session with
    rest := rest
    atLineStart := atLineStart }

/-- The flag is that of the session, or a line end comes next and it makes no difference. -/
def StartsAlike (session : Session) (atLineStart : Bool) : Prop :=
  atLineStart = session.atLineStart ∨ session.rest.head?.all isLineEnd = true

/-- The session over the new text comes past what is written for a piece with the token
that is due, and then has the other text ahead. -/
def Passes (session : Session) (cut : Cut) (run other : Text) (atLineStart : Bool) : Prop :=
  ∃ taken after,
    Reaches (session.withLayout (run ++ other) atLineStart) taken
      ((session.take cut).session.withLayout other after) ∧
    tokensOf taken = ((session.stageOf cut).tokenOver run).toList ∧
    (session.take cut).session.StartsAlike after

variable {session : Session} {cut : Cut} {before run other : Text} {atLineStart : Bool}

private theorem passes_of_take {otherCut : Cut} {after : Bool}
    (otherHere : (session.withLayout (run ++ other) atLineStart).nextCut? = some otherCut)
    (taken : (session.withLayout (run ++ other) atLineStart).take otherCut =
      ⟨(session.stageOf cut).tokenOver run, (session.take cut).session.withLayout other after⟩)
    (same : after = (session.take cut).session.atLineStart) :
    session.Passes cut run other atLineStart := by
  have step := Reaches.step otherHere (.here _)
  rw [stageOf, taken] at step
  refine ⟨_, after, step, ?_, Or.inl same⟩
  rw [tokensOf_cons]
  exact List.append_nil _

private theorem passes_blank (here : session.nextCut? = some cut)
    (found : cut.piece.finding = .blank) (written : Rewritten before cut.piece run)
    (exchange : Exchangeable (before ++ cut.piece.text) cut.rest other)
    (alike : session.StartsAlike atLineStart) : session.Passes cut run other atLineStart := by
  have form := session.nextCut?_form cut here
  obtain ⟨nonempty, whole⟩ := Cut.next?_splits _ _ _ here
  have blank := form.all_blank found
  obtain ⟨runNonempty, runBlank⟩ := written.of_blank found nonempty blank
  have stops : other.head?.any isBlank = false := by
    refine exchange.opens.noBlank ((Option.any_eq_false _ _).2 ?_)
    intro next isNext
    obtain ⟨later, behind⟩ := List.head?_eq_some_iff.1 isNext
    exact form.no_blank_behind_layout (Or.inl found) next later behind
  have otherHere : (session.withLayout (run ++ other) atLineStart).nextCut? =
      some ⟨⟨run, .blank⟩, other⟩ := Cut.next?_blankRun _ run other runNonempty runBlank stops
  -- The blanks ahead are no line end, so the line has begun in both texts or in neither.
  have sameStart : atLineStart = session.atLineStart := by
    refine alike.resolve_right ?_
    obtain ⟨first, later, pieceText⟩ := List.exists_cons_of_ne_nil nonempty
    rw [pieceText, List.all_cons, Bool.and_eq_true] at blank
    rw [← whole, pieceText]
    intro lineEnd
    change isLineEnd first = true at lineEnd
    rw [isLineEnd_of_isBlank first blank.1] at lineEnd
    cases lineEnd
  have sameIndents : (session.withLayout (run ++ other) atLineStart).indents
      ⟨⟨run, .blank⟩, other⟩ = session.indents cut := by
    change (atLineStart && session.seenContent && startsContent other) = session.indents cut
    rw [sameStart, exchange.opens.startsContent]
    rfl
  have taken : (session.withLayout (run ++ other) atLineStart).take ⟨⟨run, .blank⟩, other⟩ =
      ⟨(session.stageOf cut).tokenOver run, (session.take cut).session.withLayout other false⟩ := by
    simp only [take, takeBlank, stageOf, found, sameIndents]
    split <;> rfl
  refine passes_of_take otherHere taken ?_
  rw [take_atLineStart, found]
  rfl

private theorem passes_comment (here : session.nextCut? = some cut)
    (found : cut.piece.finding = .comment) (written : Rewritten before cut.piece run)
    (exchange : Exchangeable (before ++ cut.piece.text) cut.rest other) :
    session.Passes cut run other atLineStart := by
  have form := session.nextCut?_form cut here
  obtain ⟨body, text, sameLine, ends⟩ := form.comment_text found
  have behind : (session.take cut).session = session.pass cut := by
    rw [take, found]
  have silent : (session.stageOf cut).tokenOver run = none := by
    rw [Stage.tokenOver, stageOf, take, found]
    rfl
  rcases written.of_comment found text sameLine with rfl | ⟨otherBody, rfl, otherSameLine⟩
  · refine ⟨[], atLineStart, ?_, ?_, Or.inr ?_⟩
    · rw [behind]
      exact .here _
    · rw [silent]
      rfl
    · rw [behind]
      exact ends
  · have otherHere : (session.withLayout (';' :: otherBody ++ other) atLineStart).nextCut? =
        some ⟨⟨';' :: otherBody, .comment⟩, other⟩ :=
      Cut.next?_commentRun _ otherBody other otherSameLine (exchange.opens.lineEnd ends)
    refine passes_of_take otherHere ?_ (congrArg Session.atLineStart behind).symm
    rw [silent, behind]
    rfl

private theorem tokenOver_stageOf (here : session.nextCut? = some cut) :
    (session.stageOf cut).tokenOver cut.piece.text = (session.stageOf cut).token := by
  have form := session.nextCut?_form cut here
  unfold Stage.tokenOver stageOf
  have taking := session.take_taking cut
  generalize session.take cut = pulled at taking
  cases taking with
  | indent _ _ => rfl
  | silent _ => rfl
  | @token kind value found =>
      change some (if kind = .indent then _ else _) = _
      rw [if_neg (form.token_kind found).2]
      rfl
  | fault _ => rfl

private theorem passes_content (here : session.nextCut? = some cut)
    (noBlank : cut.piece.finding ≠ .blank)
    (noComment : cut.piece.finding ≠ .comment) (written : Rewritten before cut.piece run)
    (exchange : Exchangeable (before ++ cut.piece.text) cut.rest other) :
    session.Passes cut run other atLineStart := by
  obtain rfl := written.of_content noBlank noComment
  have otherHere : (session.withLayout (cut.piece.text ++ other) atLineStart).nextCut? =
      some ⟨cut.piece, other⟩ :=
    Cut.next?_exchange other _ cut before session.rest here noBlank noComment exchange
  have taken : (session.withLayout (cut.piece.text ++ other) atLineStart).take ⟨cut.piece, other⟩ =
      ⟨(session.take cut).token,
        (session.take cut).session.withLayout other (session.take cut).session.atLineStart⟩ := by
    unfold take
    cases found : cut.piece.finding with
    | blank => exact absurd found noBlank
    | comment => exact absurd found noComment
    | token kind value => rfl
    | fault lexeme reason => rfl
  refine passes_of_take otherHere ?_ rfl
  rw [taken, tokenOver_stageOf here]
  rfl

private theorem passes (here : session.nextCut? = some cut)
    (written : Rewritten before cut.piece run)
    (exchange : Exchangeable (before ++ cut.piece.text) cut.rest other)
    (alike : session.StartsAlike atLineStart) : session.Passes cut run other atLineStart := by
  by_cases blank : cut.piece.finding = .blank
  · exact passes_blank here blank written exchange alike
  · by_cases comment : cut.piece.finding = .comment
    · exact passes_comment here comment written exchange
    · exact passes_content here blank comment written exchange

/-! ### A whole source under another layout -/

/-- A session over the new text ends as the one over the source, with the tokens due. -/
theorem reaches_relaid (session : Session) (before : Text) (runs : List Text)
    (relaid : Relaid before session.trail.stages runs) (atLineStart : Bool)
    (alike : session.StartsAlike atLineStart) :
    ∃ taken after, Reaches (session.withLayout runs.flatten atLineStart) taken
        (session.trail.session.withLayout [] after) ∧
      tokensOf taken = tokensOver session.trail.stages runs := by
  generalize ahead : session.trail.stages = stages at relaid
  induction relaid generalizing session atLineStart with
  | nil before =>
      have atEnd := session.textOf_trail
      rw [ahead] at atEnd
      rw [trail_of_none session ((Cut.next?_eq_none_iff _ _).2 atEnd.symm)]
      exact ⟨[], atLineStart, .here _, rfl⟩
  | @cons before run stage stages runs written later ih =>
      obtain ⟨cut, here, rfl, _, laterStages⟩ := session.cut_of_trail _ _ ahead
      have exchange := (session.take cut).session.exchangeable_of_relaid
        (before ++ cut.piece.text) runs (by rw [laterStages]; exact later)
      rw [take_rest] at exchange
      obtain ⟨first, start, firstRun, firstTokens, startAlike⟩ :=
        passes here written exchange alike
      obtain ⟨others, after, othersRun, otherTokens⟩ :=
        ih (session.take cut).session start startAlike laterStages
      refine ⟨first ++ others, after, ?_, ?_⟩
      · rw [trail_of_cut session cut here]
        exact firstRun.trans othersRun
      · rw [tokensOf_append, firstTokens, otherTokens, tokensOver_cons]

/-- Layout does not leak. When other blanks are written for the blanks of a source, and
for its comments others without quotes and backslashes, or nothing where no carriage
return stands before them, the tokens stay the same, except that an indent shows the new
blanks, and so do the errors and the last line. -/
theorem finish_relaid (source : Text) (options : Options) (firstLine : Nat) (runs : List Text)
    (relaid : Relaid [] (start source options firstLine).trail.stages runs) :
    let stages := (start source options firstLine).trail.stages
    let first := (start source options firstLine).finish
    let again := (start runs.flatten options firstLine).finish
    textOf stages = source ∧
    first.tokens = tokensOf stages ∧
    again.tokens = tokensOver stages runs ∧
    again.session.errors = first.session.errors ∧
    again.session.line = first.session.line := by
  intro stages first again
  obtain ⟨taken, after, run, tokens⟩ :=
    (start source options firstLine).reaches_relaid [] runs relaid true (Or.inl rfl)
  have finished : again = ⟨tokensOf taken, _⟩ := run.finish_of_end rfl
  have firstFinished : first = _ := finish_eq_trail _
  refine ⟨textOf_trail _, (tokensOf_trail _).symm, ?_, ?_, ?_⟩
  · rw [finished]
    exact tokens
  · rw [finished, firstFinished]
    rfl
  · rw [finished, firstFinished]
    rfl

/-- The search for the end of a literal runs over blanks and a comment that others are
written for, or nothing. -/
theorem finish_relaid_open_literal :
    let source : Text := ['"', ' ', ';', '\\', '"', '\n', ' ', 'U', 'S', 'D']
    let runs : List Text := [['"'], ['\t', ' '], [], ['\n'], ['\t'], ['U', 'S', 'D']]
    let first := (start source Options.standard 1).finish
    let again := (start runs.flatten Options.standard 1).finish
    Relaid [] (start source Options.standard 1).trail.stages runs ∧
    again.tokens = [⟨.error, 1, ['"'], none⟩, ⟨.lineBreak, 1, ['\n'], none⟩,
      ⟨.indent, 2, ['\t'], none⟩,
      ⟨.currency, 2, ['U', 'S', 'D'], some (.text ['U', 'S', 'D'])⟩] ∧
    again.session.errors = first.session.errors := by
  intro source runs first again
  have run : Reaches (start source Options.standard 1) _ _ :=
    .step rfl (.step rfl (.step rfl (.step rfl (.step rfl (.step rfl (.here _))))))
  have stages := congrArg Trail.stages (run.trail_of_end rfl)
  have relaid : Relaid [] (start source Options.standard 1).trail.stages runs := by
    rw [stages]
    exact .cons .kept (.cons (.blanks rfl (List.cons_ne_nil _ _) rfl)
      (.cons (.dropped rfl (by decide)) (.cons .kept
        (.cons (.blanks rfl (List.cons_ne_nil _ _) rfl) (.cons .kept (.nil _))))))
  obtain ⟨_, _, tokens, errors, _⟩ := finish_relaid source Options.standard 1 runs relaid
  rw [stages] at tokens
  exact ⟨relaid, tokens, errors⟩

end Session

end LedgerLexer
