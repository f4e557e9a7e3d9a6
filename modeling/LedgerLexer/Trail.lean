/-
A whole run of a session, piece by piece: which piece of the source was taken up at
each stage, and which token was handed out for it. The trail is computed from the
list of pieces alone, and pulling a session to its end hands out exactly the tokens
of its trail.
-/

import LedgerLexer.Session

namespace LedgerLexer

structure Stage where
  piece : Piece
  token : Option Token
  deriving DecidableEq

/-- The stages of a run, and the session after the last of them. -/
structure Trail where
  stages : List Stage
  session : Session
  deriving DecidableEq

namespace Trail

def tokens (trail : Trail) : List Token :=
  trail.stages.filterMap Stage.token

end Trail

namespace Session

def trailOver (session : Session) : List Piece → Trail
  | [] => ⟨[], session⟩
  | piece :: later =>
      let pulled := session.take ⟨piece, sourceOf later⟩
      let rest := pulled.session.trailOver later
      ⟨⟨piece, pulled.token⟩ :: rest.stages, rest.session⟩

def piecesAhead (session : Session) : List Piece :=
  pieces session.options.maxStringLines session.rest

def trail (session : Session) : Trail :=
  session.trailOver session.piecesAhead

/-! ### Steps and pulls against the trail -/

theorem take_options (session : Session) (cut : Cut) :
    (session.take cut).session.options = session.options := by
  unfold take
  split
  · unfold takeBlank
    split <;> rfl
  · rfl
  · rfl
  · rfl

theorem pull_of_step_none (session : Session) (stepped : session.step? = none) :
    session.pull = ⟨none, session⟩ := by
  rw [pull]
  split
  · rfl
  · rename_i found
    rw [stepped] at found
    cases found
  · rename_i found
    rw [stepped] at found
    cases found

theorem pull_of_step_token (session next : Session) (token : Token)
    (stepped : session.step? = some ⟨some token, next⟩) : session.pull = ⟨some token, next⟩ := by
  rw [pull]
  split
  · rename_i found
    rw [stepped] at found
    cases found
  · rename_i found
    rw [stepped] at found
    cases found
    rfl
  · rename_i found
    rw [stepped] at found
    cases found

theorem pull_of_step_silent (session next : Session)
    (stepped : session.step? = some ⟨none, next⟩) : session.pull = next.pull := by
  rw [pull]
  split
  · rename_i found
    rw [stepped] at found
    cases found
  · rename_i found
    rw [stepped] at found
    cases found
  · rename_i found
    rw [stepped] at found
    cases found
    rfl

theorem finish_of_pull_none (session last : Session) (pulled : session.pull = ⟨none, last⟩) :
    session.finish = ⟨[], last⟩ := by
  rw [finish]
  split
  · rename_i found
    rw [pulled] at found
    cases found
    rfl
  · rename_i found
    rw [pulled] at found
    cases found

theorem finish_of_pull_token (session next : Session) (token : Token)
    (pulled : session.pull = ⟨some token, next⟩) :
    session.finish = ⟨token :: next.finish.tokens, next.finish.session⟩ := by
  rw [finish]
  split
  · rename_i found
    rw [pulled] at found
    cases found
  · rename_i found
    rw [pulled] at found
    cases found
    rfl

private theorem finish_congr_pull (session next : Session) (pulled : session.pull = next.pull) :
    session.finish = next.finish := by
  cases shown : next.pull with
  | mk token last =>
      cases token with
      | none =>
          rw [finish_of_pull_none session last (pulled.trans shown),
            finish_of_pull_none next last shown]
      | some token =>
          rw [finish_of_pull_token session last token (pulled.trans shown),
            finish_of_pull_token next last token shown]

theorem trail_of_none (session : Session) (atEnd : session.nextCut? = none) :
    session.trail = ⟨[], session⟩ := by
  unfold trail piecesAhead
  rw [(Cut.next?_eq_none_iff _ _).1 atEnd, pieces_nil]
  rfl

theorem trail_of_cut (session : Session) (cut : Cut) (here : session.nextCut? = some cut) :
    session.trail =
      ⟨⟨cut.piece, (session.take cut).token⟩ :: (session.take cut).session.trail.stages,
        (session.take cut).session.trail.session⟩ := by
  have same : (session.take cut).session.piecesAhead =
      pieces session.options.maxStringLines cut.rest := by
    unfold piecesAhead
    rw [take_options, take_rest]
  have ahead : session.piecesAhead = cut.piece :: pieces session.options.maxStringLines cut.rest :=
    pieces_of_next _ _ cut here
  unfold trail
  rw [ahead, same, trailOver, sourceOf_pieces]

theorem finish_eq_trail (session : Session) :
    session.finish = ⟨session.trail.tokens, session.trail.session⟩ := by
  induction bound : session.rest.length using Nat.strongRecOn generalizing session with
  | ind length ih =>
      cases here : session.nextCut? with
      | none =>
          have stepped : session.step? = none := by
            unfold step?
            rw [here]
            rfl
          rw [trail_of_none session here,
            finish_of_pull_none session session (pull_of_step_none session stepped)]
          rfl
      | some cut =>
          have stepped : session.step? = some (session.take cut) := by
            unfold step?
            rw [here]
            rfl
          have less := step?_rest_lt session (session.take cut) stepped
          rw [bound] at less
          have later := ih _ less (session.take cut).session rfl
          rw [trail_of_cut session cut here]
          cases taken : session.take cut with
          | mk token next =>
              rw [taken] at stepped later
              cases token with
              | none =>
                  rw [finish_congr_pull session next (pull_of_step_silent session next stepped)]
                  exact later
              | some token =>
                  rw [finish_of_pull_token session next token
                    (pull_of_step_token session next token stepped), later]
                  rfl

end Session

end LedgerLexer
