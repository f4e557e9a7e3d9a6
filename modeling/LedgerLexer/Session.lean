/-
A lexing session over one source text. It hands out one token at a time and keeps
the errors found so far; every error has its token in the stream. Besides the text
ahead and the current line, a session remembers only whether the last match ended a
line and whether any token that is no layout was handed out: these two decide
whether blank space becomes an indent.
-/

import LedgerLexer.Piece
import LedgerLexer.Options

namespace LedgerLexer

structure Session where
  options : Options
  rest : Text
  line : Nat
  atLineStart : Bool
  seenContent : Bool
  errors : Array LexError
  deriving DecidableEq

/-- The first token of a pull or a step, if there is one, and the session after it. -/
structure Pulled where
  token : Option Token
  session : Session
  deriving DecidableEq

namespace Session

def start (source : Text) (options : Options) (firstLine : Nat) : Session :=
  { options := options.usable
    rest := source
    line := firstLine
    atLineStart := true
    seenContent := false
    errors := #[] }

/-- Something other than a comment stands in the rest of the line. -/
def startsContent : Text → Bool
  | [] => false
  | char :: _ => !isLineEnd char && char != ';'

def pass (session : Session) (cut : Cut) : Session :=
  { session with
    rest := cut.rest
    atLineStart := false }

/-- The lines that a token ends. Only line breaks and string literals are counted. -/
def linesEnded (kind : Kind) (lexeme : Text) : Nat :=
  match kind with
  | .lineBreak => 1
  | .string => lineFeeds lexeme
  | _ => 0

def indents (session : Session) (cut : Cut) : Bool :=
  session.atLineStart && session.seenContent && startsContent cut.rest

def takeBlank (session : Session) (cut : Cut) : Pulled :=
  if session.indents cut then
    ⟨some ⟨.indent, session.line, cut.piece.text, none⟩, session.pass cut⟩
  else ⟨none, session.pass cut⟩

def takeToken (session : Session) (cut : Cut) (kind : Kind) (value : Option Value) : Pulled :=
  ⟨some ⟨kind, session.line, cut.piece.text, value⟩,
    { session.pass cut with
      line := session.line + linesEnded kind cut.piece.text
      atLineStart := decide (kind = .lineBreak)
      seenContent := session.seenContent || !decide kind.IsLayout }⟩

def takeFault (session : Session) (cut : Cut) (lexeme : Text) (fault : Fault) : Pulled :=
  ⟨some ⟨.error, session.line, lexeme, none⟩,
    { session.pass cut with
      seenContent := true
      errors := session.errors.push (fault.toError session.line) }⟩

/-- A token carries the line on which its piece begins. -/
def take (session : Session) (cut : Cut) : Pulled :=
  match cut.piece.finding with
  | .blank => session.takeBlank cut
  | .comment => ⟨none, session.pass cut⟩
  | .token kind value => session.takeToken cut kind value
  | .fault lexeme fault => session.takeFault cut lexeme fault

theorem take_rest (session : Session) (cut : Cut) : (session.take cut).session.rest = cut.rest := by
  unfold take
  split
  · unfold takeBlank
    split <;> rfl
  · rfl
  · rfl
  · rfl

/-! ### Steps, pulls and whole runs -/

def nextCut? (session : Session) : Option Cut :=
  Cut.next? session.options.maxStringLines session.rest

def step? (session : Session) : Option Pulled :=
  session.nextCut?.map session.take

theorem step?_rest_lt (session : Session) (pulled : Pulled)
    (stepped : session.step? = some pulled) :
    pulled.session.rest.length < session.rest.length := by
  obtain ⟨cut, cutHere, rfl⟩ := Option.map_eq_some_iff.1 stepped
  rw [take_rest]
  exact Cut.next?_rest_lt _ _ _ cutHere

def pull (session : Session) : Pulled :=
  match _stepped : session.step? with
  | none => ⟨none, session⟩
  | some ⟨some token, next⟩ => ⟨some token, next⟩
  | some ⟨none, next⟩ => next.pull
termination_by session.rest.length
decreasing_by exact step?_rest_lt session _ _stepped

theorem pull_rest_lt (session : Session) (token : Token) (next : Session)
    (pulled : session.pull = ⟨some token, next⟩) : next.rest.length < session.rest.length := by
  fun_induction pull session with
  | case1 session _ => cases pulled
  | case2 session found after stepped =>
      cases pulled
      exact step?_rest_lt session _ stepped
  | case3 session after stepped ih =>
      exact Nat.lt_trans (ih pulled) (step?_rest_lt session _ stepped)

/-- A session that has been pulled until it gave no more tokens. -/
structure Finished where
  tokens : List Token
  session : Session
  deriving DecidableEq

def finish (session : Session) : Finished :=
  match _pulled : session.pull with
  | ⟨none, last⟩ => ⟨[], last⟩
  | ⟨some token, next⟩ =>
      let later := next.finish
      ⟨token :: later.tokens, later.session⟩
termination_by session.rest.length
decreasing_by exact pull_rest_lt session token next _pulled

end Session

def Setup.session (setup : Setup) (source : Text) : Session :=
  Session.start source setup.options setup.firstLine

def lex (source : Text) (options : Options) : Session.Finished :=
  ((Setup.ofOptions options).session source).finish

end LedgerLexer
