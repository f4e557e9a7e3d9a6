/-
What a run over several files prints. Pulling the session of a file step by step gives
the tokens and the errors of the whole source, so the outcome of a file depends on its
text, the options and the command alone; a pool of any number of workers, in whatever
order they work, gives the outcomes of the files in the order of the inputs.
-/

import LedgerLexer.CommandLine
import LedgerLexer.Proofs.Runs
import LedgerLexer.Proofs.Schedules

namespace LedgerLexer

theorem Invocation.threads_pos (invocation : Invocation) (environment : Environment)
    (processors : Nat) : 1 ≤ invocation.threads environment processors :=
  Nat.le_max_left _ _

namespace FileRun

variable (run : FileRun)

def tokenLines (path : Text) (tokens : List Token) : List Text :=
  match run.command with
  | .tokens => tokens.map (tokenLine path)
  | .check => []

def lexed (path : Text) : Outcome :=
  match run.directory path with
  | none => .missing
  | some source =>
      let finished := lex source run.options
      let reports := finished.session.errors.toList.map (errorLine path)
      ⟨(run.tokenLines path finished.tokens).flatten ++ reports.flatten,
        finished.session.errors.size⟩

theorem lexed_of_source (path source : Text) (found : run.directory path = some source) :
    run.lexed path =
      ⟨(run.tokenLines path (lex source run.options).tokens).flatten ++
          ((lex source run.options).session.errors.toList.map (errorLine path)).flatten,
        (lex source run.options).session.errors.size⟩ := by
  unfold lexed
  rw [found]

theorem lexed_of_missing (path : Text) (absent : run.directory path = none) :
    run.lexed path = .missing := by
  unfold lexed
  rw [absent]

private theorem tokenLines_cons (path : Text) (token : Token) (later : List Token) :
    (run.printToken path #[] token).toList ++ run.tokenLines path later =
      run.tokenLines path (token :: later) := by
  unfold printToken tokenLines
  cases run.command <;> rfl

private theorem printToken_toList (path : Text) (lines : Array Text) (token : Token) :
    (run.printToken path lines token).toList =
      lines.toList ++ (run.printToken path #[] token).toList := by
  unfold printToken
  cases run.command with
  | tokens => rw [Array.toList_push, Array.toList_push]; rfl
  | check => exact (List.append_nil _).symm

/-- From any point of a file on, the lines still to be printed are those of the tokens
still to be pulled. -/
theorem result_underway (path : Text) (lines : Array Text) (session : Session) :
    run.workload.job.result (.underway path lines session) =
      close path (lines ++ run.tokenLines path session.finish.tokens) session.finish.session := by
  induction bound : session.rest.length using Nat.strongRecOn generalizing lines session with
  | ind length ih =>
      cases pulled : session.pull with
      | mk token next =>
          cases token with
          | none =>
              have advanced : run.workload.job.advance (.underway path lines session) =
                  .inr (close path lines next) := by
                change run.advance (.underway path lines session) = _
                simp only [advance, pulled]
              rw [Job.result_of_yield _ _ _ advanced,
                Session.finish_of_pull_none session next pulled]
              unfold tokenLines
              cases run.command <;> rfl
          | some token =>
              have advanced : run.workload.job.advance (.underway path lines session) =
                  .inl (.underway path (run.printToken path lines token) next) := by
                change run.advance (.underway path lines session) = _
                simp only [advance, pulled]
              have shorter := Session.pull_rest_lt session token next pulled
              rw [bound] at shorter
              rw [Job.result_of_next _ _ _ advanced, ih _ shorter _ next rfl,
                Session.finish_of_pull_token session next token pulled]
              unfold close
              rw [Array.toList_appendList, Array.toList_appendList, printToken_toList,
                List.append_assoc, tokenLines_cons]

theorem outcome_eq_lexed (path : Text) : run.outcome path = run.lexed path := by
  unfold outcome lexed
  cases found : run.directory path with
  | none =>
      have advanced : run.workload.job.advance (.unopened path) = .inr .missing := by
        change run.advance (.unopened path) = _
        simp only [advance, found]
      rw [Job.result_of_yield _ _ _ advanced]
  | some source =>
      have advanced : run.workload.job.advance (.unopened path) =
          .inl (.underway path #[] ((Setup.ofOptions run.options).session source)) := by
        change run.advance (.unopened path) = _
        simp only [advance, found]
      rw [Job.result_of_next _ _ _ advanced, result_underway]
      unfold close
      rw [Array.toList_appendList]
      rfl

private theorem fillMissing_map_some (outcome : Text → Outcome) (inputs : List Text) :
    fillMissing (inputs.map (fun path => some (outcome path))) inputs = inputs.map outcome := by
  unfold fillMissing
  rw [List.zipWith_map_left, List.zipWith_self]
  rfl

private theorem run_eq_lexed (threads : Nat) (schedule : List Nat) (inputs : List Text)
    (positive : 1 ≤ threads) :
    Pool.run run.workload threads schedule inputs =
      inputs.map (fun path => some (run.lexed path)) := by
  rw [Pool.run_eq_map run.workload threads schedule inputs positive]
  congr 1
  funext path
  exact congrArg some (run.outcome_eq_lexed path)

theorem outcomes_eq_lexed (threads : Nat) (schedule : List Nat) (inputs : List Text)
    (positive : 1 ≤ threads) :
    run.outcomes threads schedule inputs = inputs.map run.lexed := by
  rw [outcomes, run_eq_lexed run threads schedule inputs positive, fillMissing_map_some]

/-- A pool of workers gives what lexing the inputs one by one gives. However many workers
there are and in whatever order they take their steps, each numbered input has one result,
that of its file lexed on its own, and no slot is left for a placeholder; so the outcomes,
and with them everything that is printed, do not depend on the workers. -/
theorem outcomes_of_any_schedule (threads : Nat) (schedule : List Nat) (inputs : List Text)
    (positive : 1 ≤ threads) :
    let pool := (Pool.start threads inputs).follow run.workload schedule
    (∀ path, run.outcome path = run.lexed path) ∧
    (Pool.collect run.workload pool.queue pool.workers).Perm
      ((Pool.numbered inputs).map (fun entry => (entry.1, run.lexed entry.2))) ∧
    Pool.run run.workload threads schedule inputs =
      inputs.map (fun path => some (run.lexed path)) ∧
    run.outcomes threads schedule inputs = inputs.map run.lexed ∧
    (∀ otherThreads otherSchedule, 1 ≤ otherThreads →
      run.outcomes otherThreads otherSchedule inputs = run.outcomes threads schedule inputs) ∧
    ∀ (invocation : Invocation) (environment : Environment) (processors : Nat)
      (directory : Directory), invocation.answer environment processors directory schedule =
        Answer.ofOutcomes
          (invocation.inputs.map (invocation.run environment directory).lexed) := by
  intro pool
  have collected := Pool.collect_follow run.workload threads schedule inputs positive
  refine ⟨run.outcome_eq_lexed, ?_, run.run_eq_lexed threads schedule inputs positive,
    run.outcomes_eq_lexed threads schedule inputs positive, ?_, ?_⟩
  · have sameResult : run.workload.result = run.lexed := funext run.outcome_eq_lexed
    rw [sameResult] at collected
    exact collected
  · intro otherThreads otherSchedule otherPositive
    rw [run.outcomes_eq_lexed threads schedule inputs positive,
      run.outcomes_eq_lexed otherThreads otherSchedule inputs otherPositive]
  · intro invocation environment processors directory
    rw [Invocation.answer, (invocation.run environment directory).outcomes_eq_lexed _ _ _
      (invocation.threads_pos environment processors)]

/-- Two workers take turns over a file that is given twice and one that is not there. -/
theorem outcomes_of_two_workers :
    let directory : Directory := fun path => if path = ['a'] then some ['U', 'S', 'D'] else none
    let run : FileRun := ⟨directory, Options.standard, .check⟩
    1 ≤ 2 ∧
    run.outcomes 2 [1, 0, 1, 1, 0] [['a'], ['b'], ['a']] = [⟨[], 0⟩, Outcome.missing, ⟨[], 0⟩] := by
  intro directory run
  have finished : lex ['U', 'S', 'D'] Options.standard = _ :=
    (Session.Reaches.step rfl (.here _)).finish_of_end rfl
  have first : run.lexed ['a'] = ⟨[], 0⟩ := by
    change (⟨_, _⟩ : Outcome) = _
    rw [finished]
    rfl
  obtain ⟨_, _, _, outcomes, _⟩ := run.outcomes_of_any_schedule 2 [1, 0, 1, 1, 0]
    [['a'], ['b'], ['a']] (by decide)
  refine ⟨by decide, outcomes.trans ?_⟩
  simp only [List.map_cons, List.map_nil, first]
  rfl

end FileRun

end LedgerLexer
