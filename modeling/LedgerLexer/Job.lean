/-
Work that is done in steps. A step either leaves less work to do or yields the
result, so every job ends, whoever takes its steps and whenever.
-/

namespace LedgerLexer

structure Job (State Result : Type) where
  advance : State → State ⊕ Result
  remaining : State → Nat
  advance_lt : ∀ state next, advance state = .inl next → remaining next < remaining state

/-- What the job yields when all of its steps are taken. -/
def Job.result {State Result : Type} (job : Job State Result) (state : State) : Result :=
  match _advanced : job.advance state with
  | .inl next => job.result next
  | .inr result => result
termination_by job.remaining state
decreasing_by exact job.advance_lt state next _advanced

theorem Job.result_of_next {State Result : Type} (job : Job State Result) (state next : State)
    (advanced : job.advance state = .inl next) : job.result state = job.result next := by
  rw [Job.result]
  split
  · rename_i found here
    rw [advanced] at here
    cases here
    rfl
  · rename_i found here
    rw [advanced] at here
    cases here

theorem Job.result_of_yield {State Result : Type} (job : Job State Result) (state : State)
    (result : Result) (advanced : job.advance state = .inr result) :
    job.result state = result := by
  rw [Job.result]
  split
  · rename_i found here
    rw [advanced] at here
    cases here
  · rename_i found here
    rw [advanced] at here
    cases here
    rfl

end LedgerLexer
