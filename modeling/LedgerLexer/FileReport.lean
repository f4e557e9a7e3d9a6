/-
What is printed for one source file: a line for every token, if tokens are wanted,
and then a line for every error. A file that cannot be read as text prints nothing
and counts as one error. Lexing a file is a job whose steps are the pulls of its
session, and a pool of workers shares the files of one run.
-/

import LedgerLexer.Session
import LedgerLexer.Display
import LedgerLexer.Pool

namespace LedgerLexer

inductive Command where
  | tokens
  | check
  deriving DecidableEq

structure Outcome where
  output : Text
  errors : Nat
  deriving DecidableEq

/-- The text that a path leads to; nothing when it leads to no readable text. -/
abbrev Directory := Text → Option Text

def tokenLine (path : Text) (token : Token) : Text :=
  path ++ ':' :: token.shown ++ ['\n']

def errorLine (path : Text) (error : LexError) : Text :=
  error.report path ++ ['\n']

/-- Of a file that cannot be read, and of one that was lost. -/
def Outcome.missing : Outcome :=
  ⟨[], 1⟩

/-- What all files of one run share. -/
structure FileRun where
  directory : Directory
  options : Options
  command : Command

inductive FileWork where
  | unopened (path : Text)
  /-- The lines printed so far, and the session. -/
  | underway (path : Text) (lines : Array Text) (session : Session)

namespace FileRun

def printToken (run : FileRun) (path : Text) (lines : Array Text) (token : Token) : Array Text :=
  match run.command with
  | .tokens => lines.push (tokenLine path token)
  | .check => lines

def close (path : Text) (lines : Array Text) (session : Session) : Outcome :=
  let reports := session.errors.toList.map (errorLine path)
  ⟨lines.toList.flatten ++ reports.flatten, session.errors.size⟩

def advance (run : FileRun) : FileWork → FileWork ⊕ Outcome
  | .unopened path =>
      match run.directory path with
      | some source => .inl (.underway path #[] ((Setup.ofOptions run.options).session source))
      | none => .inr .missing
  | .underway path lines session =>
      match session.pull with
      | ⟨some token, next⟩ => .inl (.underway path (run.printToken path lines token) next)
      | ⟨none, last⟩ => .inr (close path lines last)

def remaining (run : FileRun) : FileWork → Nat
  | .unopened path => ((run.directory path).getD []).length + 1
  | .underway _ _ session => session.rest.length

theorem advance_lt (run : FileRun) (work next : FileWork)
    (advanced : run.advance work = .inl next) : run.remaining next < run.remaining work := by
  cases work with
  | unopened path =>
      cases found : run.directory path with
      | none =>
          simp only [advance, found] at advanced
          cases advanced
      | some source =>
          simp only [advance, found] at advanced
          cases advanced
          simp only [remaining, found, Option.getD_some]
          exact Nat.lt_succ_self _
  | underway path lines session =>
      cases pulled : session.pull with
      | mk token after =>
          cases token with
          | none =>
              simp only [advance, pulled] at advanced
              cases advanced
          | some token =>
              simp only [advance, pulled] at advanced
              cases advanced
              exact Session.pull_rest_lt session token after pulled

def workload (run : FileRun) : Workload Text FileWork Outcome :=
  { job := ⟨run.advance, run.remaining, run.advance_lt⟩
    begin := .unopened }

def outcome (run : FileRun) (path : Text) : Outcome :=
  run.workload.job.result (.unopened path)

end FileRun

/-- An outcome for each input; stops at the end of the shorter list. -/
def fillMissing (outcomes : List (Option Outcome)) (inputs : List Text) : List Outcome :=
  List.zipWith (fun outcome _ => outcome.getD .missing) outcomes inputs

def FileRun.outcomes (run : FileRun) (threads : Nat) (schedule : List Nat) (inputs : List Text) :
    List Outcome :=
  fillMissing (Pool.run run.workload threads schedule inputs) inputs

/-- No more workers than files, and at least one. -/
def workerCount (wanted files : Nat) : Nat :=
  max 1 (min wanted (max files 1))

end LedgerLexer
