/-
A pool of workers over one queue of numbered inputs. An idle worker takes the input
at the front of the queue, or retires when there is none; a busy one takes the next
step of its job and keeps the result when the job yields it. A schedule is a list of
worker positions, in the order in which the workers take their steps. When it ends,
each worker is waited for in turn, which lets it go on until it retires. The results
are put back into the order of the inputs by their numbers.
-/

import LedgerLexer.Job

namespace LedgerLexer

inductive Activity (State : Type) where
  | idle
  | busy (number : Nat) (state : State)
  | retired

structure Worker (State Result : Type) where
  activity : Activity State
  results : List (Nat × Result)

/-- How the inputs of a pool become jobs. -/
structure Workload (Input State Result : Type) where
  job : Job State Result
  begin : Input → State

abbrev Queue (Input : Type) := List (Nat × Input)

/-- One worker and the queue that it shares with the others. -/
structure Station (Input State Result : Type) where
  queue : Queue Input
  worker : Worker State Result

namespace Station

variable {Input State Result : Type}

def isRetired (station : Station Input State Result) : Bool :=
  match station.worker.activity with
  | .retired => true
  | _ => false

def become (station : Station Input State Result) (activity : Activity State) :
    Station Input State Result :=
  { station with worker := { station.worker with activity := activity } }

def step (workload : Workload Input State Result) (station : Station Input State Result) :
    Station Input State Result :=
  match station.worker.activity with
  | .idle =>
      match station.queue with
      | [] => station.become .retired
      | (number, input) :: queue =>
          { station with queue := queue }.become (.busy number (workload.begin input))
  | .busy number state =>
      match workload.job.advance state with
      | .inl next => station.become (.busy number next)
      | .inr result =>
          { station with
            worker :=
              { activity := .idle
                results := station.worker.results ++ [(number, result)] } }
  | .retired => station

/-! ### The work left -/

def activityLoad (workload : Workload Input State Result) : Activity State → Nat
  | .idle => 1
  | .busy _ state => workload.job.remaining state + 2
  | .retired => 0

def queueLoad (workload : Workload Input State Result) : Queue Input → Nat
  | [] => 0
  | entry :: queue =>
      workload.job.remaining (workload.begin entry.2) + 2 + queueLoad workload queue

def load (workload : Workload Input State Result) (station : Station Input State Result) : Nat :=
  queueLoad workload station.queue + activityLoad workload station.worker.activity

private theorem step_load_lt (workload : Workload Input State Result)
    (station : Station Input State Result) (working : station.isRetired = false) :
    (station.step workload).load workload < station.load workload := by
  rcases station with ⟨queue, activity, results⟩
  cases activity with
  | idle =>
      cases queue with
      | nil => exact Nat.lt_succ_self _
      | cons entry queue =>
          change queueLoad workload queue + (workload.job.remaining (workload.begin entry.2) + 2) <
            queueLoad workload (entry :: queue) + 1
          rw [queueLoad]
          omega
  | busy number state =>
      cases advanced : workload.job.advance state with
      | inl next =>
          have less := workload.job.advance_lt state next advanced
          unfold load step
          simp only [advanced, become, activityLoad]
          omega
      | inr result =>
          unfold load step
          simp only [advanced, activityLoad]
          omega
  | retired => cases working

def finish (workload : Workload Input State Result) (station : Station Input State Result) :
    Station Input State Result :=
  if _working : station.isRetired = false then (station.step workload).finish workload else station
termination_by station.load workload
decreasing_by exact step_load_lt workload station _working

end Station

structure Pool (Input State Result : Type) where
  queue : Queue Input
  workers : List (Worker State Result)

namespace Pool

variable {Input State Result : Type}

def numbered (inputs : List Input) : Queue Input :=
  inputs.zipIdx.map (fun entry => (entry.2, entry.1))

private theorem length_numbered (inputs : List Input) :
    (numbered inputs).length = inputs.length := by
  rw [numbered, List.length_map, List.length_zipIdx]

def start (threads : Nat) (inputs : List Input) : Pool Input State Result :=
  { queue := numbered inputs
    workers := List.replicate threads ⟨.idle, []⟩ }

def step (workload : Workload Input State Result) (pool : Pool Input State Result)
    (position : Nat) : Pool Input State Result :=
  match pool.workers[position]? with
  | some worker =>
      let station := Station.step workload ⟨pool.queue, worker⟩
      ⟨station.queue, pool.workers.set position station.worker⟩
  | none => pool

def follow (workload : Workload Input State Result) (pool : Pool Input State Result)
    (schedule : List Nat) : Pool Input State Result :=
  schedule.foldl (step workload) pool

/-- A worker that has taken up an entry of the queue and is at the beginning of its job. -/
def begun (workload : Workload Input State Result) (entry : Nat × Input) : Worker State Result :=
  ⟨.busy entry.1 (workload.begin entry.2), []⟩

/-- When so many workers have taken one step each, each of them is busy with an input of its
own, and the others are idle. -/
theorem follow_range (workload : Workload Input State Result) (threads count : Nat)
    (inputs : List Input) (staffed : count ≤ threads) (filled : count ≤ inputs.length) :
    (start threads inputs).follow workload (List.range count) =
      ⟨(numbered inputs).drop count,
        ((numbered inputs).take count).map (begun workload) ++
          List.replicate (threads - count) ⟨.idle, []⟩⟩ := by
  induction count with
  | zero => rfl
  | succ count ih =>
      have busy : (((numbered inputs).take count).map (begun workload)).length = count := by
        rw [List.length_map, List.length_take, length_numbered]
        omega
      have queued : count < (numbered inputs).length := by
        rw [length_numbered]
        exact filled
      have idle : threads - count = threads - (count + 1) + 1 := by omega
      have last : (start threads inputs).follow workload (List.range (count + 1)) =
          step workload ((start threads inputs).follow workload (List.range count)) count := by
        rw [List.range_succ]
        exact List.foldl_append
      rw [last, ih (by omega) (by omega), idle, List.replicate_succ, step]
      simp only [List.getElem?_append_right (Nat.le_of_eq busy), busy, Nat.sub_self,
        List.getElem?_cons_zero]
      rw [List.drop_eq_getElem_cons queued, List.take_succ_eq_append_getElem queued,
        List.map_append, List.append_assoc, List.set_append_right _ _ (Nat.le_of_eq busy), busy,
        Nat.sub_self]
      rfl

/-- What the workers have to show, each when it has retired, in their order. -/
def collect (workload : Workload Input State Result) (queue : Queue Input) :
    List (Worker State Result) → List (Nat × Result)
  | [] => []
  | worker :: others =>
      let station := Station.finish workload ⟨queue, worker⟩
      station.worker.results ++ collect workload station.queue others

def deliver (count : Nat) (results : List (Nat × Result)) : List (Option Result) :=
  results.foldl (fun slots entry => slots.set entry.1 (some entry.2)) (List.replicate count none)

/-- The result of every input, at the place of the input. -/
def run (workload : Workload Input State Result) (threads : Nat) (schedule : List Nat)
    (inputs : List Input) : List (Option Result) :=
  let pool := (start threads inputs).follow workload schedule
  deliver inputs.length (collect workload pool.queue pool.workers)

end Pool

end LedgerLexer
