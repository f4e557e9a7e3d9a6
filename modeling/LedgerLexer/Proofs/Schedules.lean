/-
Every schedule of a pool yields the same results. What a worker has finished, what it is
busy with and what is still queued make up one list of numbered results; a step moves an
entry of that list and neither adds nor drops one. Since the numbers are those of the
inputs, delivering the results puts each at the place of its input.
-/

import Mathlib.Data.List.Perm.Basic
import LedgerLexer.Pool

namespace LedgerLexer

variable {Input State Result : Type}

/-- The result of one input when a single worker takes all steps of its job. -/
def Workload.result (workload : Workload Input State Result) (input : Input) : Result :=
  workload.job.result (workload.begin input)

namespace Station

variable (workload : Workload Input State Result)

def queuedResults (queue : Queue Input) : List (Nat × Result) :=
  queue.map (fun entry => (entry.1, workload.result entry.2))

def awaitedResults : Activity State → List (Nat × Result)
  | .idle => []
  | .busy number state => [(number, workload.job.result state)]
  | .retired => []

def workerResults (worker : Worker State Result) : List (Nat × Result) :=
  worker.results ++ awaitedResults workload worker.activity

def settledResults (station : Station Input State Result) : List (Nat × Result) :=
  workerResults workload station.worker ++ queuedResults workload station.queue

private theorem step_settledResults (station : Station Input State Result) :
    (settledResults workload (station.step workload)).Perm (settledResults workload station) := by
  rcases station with ⟨queue, activity, results⟩
  cases activity with
  | idle =>
      cases queue with
      | nil => exact List.Perm.refl _
      | cons entry queue =>
          -- The entry that the worker takes stands first in the queue.
          change ((results ++ [(entry.1, workload.result entry.2)]) ++
            queuedResults workload queue).Perm ((results ++ []) ++
              (entry.1, workload.result entry.2) :: queuedResults workload queue)
          rw [List.append_nil, List.append_assoc, List.singleton_append]
  | busy number state =>
      cases advanced : workload.job.advance state with
      | inl next =>
          have same := workload.job.result_of_next state next advanced
          have stepped : (step workload ⟨queue, ⟨.busy number state, results⟩⟩) =
              ⟨queue, ⟨.busy number next, results⟩⟩ := by
            simp only [step, advanced, become]
          rw [stepped]
          change ((results ++ [(number, workload.job.result next)]) ++
            queuedResults workload queue).Perm
              ((results ++ [(number, workload.job.result state)]) ++ queuedResults workload queue)
          rw [same]
      | inr result =>
          have same := workload.job.result_of_yield state result advanced
          have stepped : (step workload ⟨queue, ⟨.busy number state, results⟩⟩) =
              ⟨queue, ⟨.idle, results ++ [(number, result)]⟩⟩ := by
            simp only [step, advanced]
          rw [stepped]
          change (((results ++ [(number, result)]) ++ []) ++ queuedResults workload queue).Perm
            ((results ++ [(number, workload.job.result state)]) ++ queuedResults workload queue)
          rw [same, List.append_nil]
  | retired => exact List.Perm.refl _

/-- A worker retires only when nothing is queued, and nothing is queued again. -/
def Drained (station : Station Input State Result) : Prop :=
  station.isRetired = true → station.queue = []

private theorem step_queue_of_nil (station : Station Input State Result)
    (empty : station.queue = []) : (station.step workload).queue = [] := by
  rcases station with ⟨queue, activity, results⟩
  change queue = [] at empty
  subst empty
  cases activity with
  | idle => rfl
  | busy number state =>
      cases advanced : workload.job.advance state with
      | inl next => simp only [step, advanced, become]
      | inr result => simp only [step, advanced]
  | retired => rfl

private theorem step_drained (station : Station Input State Result) (drained : station.Drained) :
    (station.step workload).Drained := by
  rcases station with ⟨queue, activity, results⟩
  cases activity with
  | idle =>
      cases queue with
      | nil => exact fun _ => rfl
      | cons entry queue => exact nofun
  | busy number state =>
      cases advanced : workload.job.advance state with
      | inl next =>
          intro retired
          simp only [step, advanced, become, isRetired] at retired
          cases retired
      | inr result =>
          intro retired
          simp only [step, advanced, isRetired] at retired
          cases retired
  | retired => exact drained

private theorem finish_results (station : Station Input State Result) (drained : station.Drained) :
    (station.finish workload).queue = [] ∧
      ((station.finish workload).worker.results).Perm (settledResults workload station) := by
  fun_induction finish workload station with
  | case1 station working ih =>
      obtain ⟨empty, results⟩ := ih (station.step_drained workload drained)
      exact ⟨empty, results.trans (station.step_settledResults workload)⟩
  | case2 station stopped =>
      have retired : station.isRetired = true := by simpa using stopped
      have empty := drained retired
      refine ⟨empty, ?_⟩
      rcases station with ⟨queue, activity, results⟩
      change queue = [] at empty
      subst empty
      cases activity with
      | retired =>
          change results.Perm ((results ++ []) ++ [])
          rw [List.append_nil, List.append_nil]
      | idle => cases retired
      | busy number state => cases retired

end Station

namespace Pool

variable (workload : Workload Input State Result)

/-! ### Whole pools -/

def settledResults (pool : Pool Input State Result) : List (Nat × Result) :=
  pool.workers.flatMap (Station.workerResults workload) ++
    Station.queuedResults workload pool.queue

/-- Some worker is there, and none has retired before the queue was empty. -/
structure Sound (pool : Pool Input State Result) : Prop where
  staffed : pool.workers ≠ []
  drained : ∀ worker ∈ pool.workers, (⟨pool.queue, worker⟩ : Station Input State Result).Drained

private theorem start_sound (threads : Nat) (inputs : List Input) (positive : 1 ≤ threads) :
    (start threads inputs : Pool Input State Result).Sound where
  staffed := by
    intro empty
    have length := congrArg List.length empty
    rw [start, List.length_replicate] at length
    change threads = 0 at length
    omega
  drained := by
    intro worker member
    rw [List.eq_of_mem_replicate member]
    exact nofun

private theorem step_sound (pool : Pool Input State Result) (position : Nat) (sound : pool.Sound) :
    (pool.step workload position).Sound := by
  unfold step
  split
  · rename_i worker found
    refine ⟨?_, ?_⟩
    · intro empty
      exact sound.staffed ((List.set_eq_nil_iff _ _).1 empty)
    · intro other member
      rcases List.mem_or_eq_of_mem_set member with earlier | rfl
      · intro retired
        exact Station.step_queue_of_nil workload ⟨pool.queue, worker⟩
          (sound.drained other earlier retired)
      · exact Station.step_drained workload ⟨pool.queue, worker⟩
          (sound.drained worker (List.mem_of_getElem? found))
  · exact sound

private theorem step_settledResults (pool : Pool Input State Result) (position : Nat) :
    (settledResults workload (pool.step workload position)).Perm
      (settledResults workload pool) := by
  unfold step
  split
  · rename_i worker found
    obtain ⟨within, rfl⟩ := List.getElem?_eq_some_iff.1 found
    have stationKeeps :=
      Station.step_settledResults workload ⟨pool.queue, pool.workers[position]⟩
    generalize Station.step workload ⟨pool.queue, pool.workers[position]⟩ = station at stationKeeps
    -- Bring the worker that takes the step to the front, next to the queue.
    have workersAfter := (List.set_perm_cons_eraseIdx within station.worker).flatMap_right
      (Station.workerResults workload)
    have workersBefore := (List.getElem_cons_eraseIdx_perm within).flatMap_right
      (Station.workerResults workload)
    have regroup (worker : Worker State Result) (queue : Queue Input) :
        ((worker :: pool.workers.eraseIdx position).flatMap (Station.workerResults workload) ++
          Station.queuedResults workload queue).Perm
        ((pool.workers.eraseIdx position).flatMap (Station.workerResults workload) ++
          Station.settledResults workload ⟨queue, worker⟩) := by
      rw [List.flatMap_cons, Station.settledResults, ← List.append_assoc]
      exact List.perm_append_comm.append_right _
    calc (pool.workers.set position station.worker).flatMap (Station.workerResults workload) ++
          Station.queuedResults workload station.queue
      _ |>.Perm _ := workersAfter.append_right _
      _ |>.Perm _ := regroup station.worker station.queue
      _ |>.Perm _ := stationKeeps.append_left _
      _ |>.Perm _ := (regroup pool.workers[position] pool.queue).symm
      _ |>.Perm _ := workersBefore.append_right _
  · exact List.Perm.refl _

private theorem follow_keeps (pool : Pool Input State Result) (schedule : List Nat)
    (sound : pool.Sound) :
    (pool.follow workload schedule).Sound ∧
      (settledResults workload (pool.follow workload schedule)).Perm
        (settledResults workload pool) := by
  induction schedule generalizing pool with
  | nil => exact ⟨sound, List.Perm.refl _⟩
  | cons position later ih =>
      obtain ⟨laterSound, laterKeeps⟩ := ih (pool.step workload position)
        (pool.step_sound workload position sound)
      exact ⟨laterSound, laterKeeps.trans (pool.step_settledResults workload position)⟩

/-- Waiting for the workers in turn gathers everything, whoever has to do the rest. -/
theorem collect_settled (queue : Queue Input) (workers : List (Worker State Result))
    (served : workers ≠ [] ∨ queue = [])
    (drained : ∀ worker ∈ workers, (⟨queue, worker⟩ : Station Input State Result).Drained) :
    (collect workload queue workers).Perm (settledResults workload ⟨queue, workers⟩) := by
  induction workers generalizing queue with
  | nil =>
      rw [served.resolve_left (fun some => some rfl)]
      exact List.Perm.refl _
  | cons worker others ih =>
      obtain ⟨empty, results⟩ := Station.finish_results workload ⟨queue, worker⟩
        (drained worker (List.mem_cons_self ..))
      have rest := ih (Station.finish workload ⟨queue, worker⟩).queue (Or.inr empty)
        (fun _ _ _ => empty)
      rw [empty] at rest
      have joined := results.append rest
      rw [collect, empty]
      refine joined.trans ?_
      unfold settledResults Station.settledResults Station.queuedResults
      rw [List.map_nil, List.append_nil, List.flatMap_cons, List.append_assoc, List.append_assoc]
      exact List.perm_append_comm.append_left _

private theorem start_settledResults (threads : Nat) (inputs : List Input) :
    settledResults workload (start threads inputs) =
      (numbered inputs).map (fun entry => (entry.1, workload.result entry.2)) := by
  have nothing : (start threads inputs : Pool Input State Result).workers.flatMap
      (Station.workerResults workload) = [] := by
    rw [List.flatMap_eq_nil_iff]
    intro worker member
    rw [List.eq_of_mem_replicate member]
    rfl
  rw [settledResults, nothing]
  rfl

/-- Each input is lexed once: whatever the schedule, the workers end with one result for
every numbered input, and with no other. -/
theorem collect_follow (threads : Nat) (schedule : List Nat) (inputs : List Input)
    (positive : 1 ≤ threads) :
    let pool := (start threads inputs).follow workload schedule
    (collect workload pool.queue pool.workers).Perm
      ((numbered inputs).map (fun entry => (entry.1, workload.result entry.2))) := by
  intro pool
  obtain ⟨sound, keeps⟩ := (start threads inputs).follow_keeps workload schedule
    (start_sound threads inputs positive)
  rw [start_settledResults] at keeps
  exact (collect_settled workload pool.queue pool.workers (Or.inl sound.staffed)
    sound.drained).trans keeps

def fillSlot (slots : List (Option Result)) (entry : Nat × Result) : List (Option Result) :=
  slots.set entry.1 (some entry.2)

private theorem foldl_fillSlot_length (slots : List (Option Result))
    (results : List (Nat × Result)) : (results.foldl fillSlot slots).length = slots.length := by
  induction results generalizing slots with
  | nil => rfl
  | cons entry later ih => rw [List.foldl_cons, ih, fillSlot, List.length_set]

private theorem foldl_fillSlot_of_not_mem (slots : List (Option Result))
    (results : List (Nat × Result)) (number : Nat) (absent : number ∉ results.map Prod.fst) :
    (results.foldl fillSlot slots)[number]? = slots[number]? := by
  induction results generalizing slots with
  | nil => rfl
  | cons entry later ih =>
      rw [List.map_cons, List.mem_cons, not_or] at absent
      rw [List.foldl_cons, ih _ absent.2, fillSlot, List.getElem?_set_ne (Ne.symm absent.1)]

private theorem foldl_fillSlot_of_mem (slots : List (Option Result)) (results : List (Nat × Result))
    (once : (results.map Prod.fst).Nodup) (number : Nat) (result : Result)
    (present : (number, result) ∈ results) (within : number < slots.length) :
    (results.foldl fillSlot slots)[number]? = some (some result) := by
  induction results generalizing slots with
  | nil => cases present
  | cons entry later ih =>
      rw [List.map_cons, List.nodup_cons] at once
      rw [List.foldl_cons]
      rcases List.mem_cons.1 present with rfl | laterMember
      · rw [foldl_fillSlot_of_not_mem _ _ _ once.1, fillSlot, List.getElem?_set_self within]
      · exact ih _ once.2 laterMember (by rw [fillSlot, List.length_set]; exact within)

private theorem numbered_numbers (inputs : List Input) :
    (numbered inputs).map Prod.fst = List.range inputs.length := by
  unfold numbered
  rw [List.map_map]
  exact List.zipIdx_map_snd 0 inputs |>.trans (List.range_eq_range').symm

private theorem mem_numbered (inputs : List Input) (place : Nat) (within : place < inputs.length) :
    (place, inputs[place]) ∈ numbered inputs := by
  refine List.mem_map.2 ⟨(inputs[place], place), ?_, rfl⟩
  rw [List.mem_zipIdx_iff_getElem?]
  exact List.getElem?_eq_getElem within

private theorem deliver_numbered (inputs : List Input) (results : List (Nat × Result))
    (result : Input → Result)
    (each : results.Perm ((numbered inputs).map (fun entry => (entry.1, result entry.2)))) :
    deliver inputs.length results = inputs.map (fun input => some (result input)) := by
  have once : (results.map Prod.fst).Nodup := by
    have numbers := each.map Prod.fst
    rw [List.map_map] at numbers
    refine numbers.nodup_iff.2 ?_
    change ((numbered inputs).map Prod.fst).Nodup
    rw [numbered_numbers]
    exact List.nodup_range
  have slots : (List.replicate inputs.length (none : Option Result)).length = inputs.length :=
    List.length_replicate
  change results.foldl fillSlot (List.replicate inputs.length none) = _
  apply List.ext_getElem?
  intro place
  by_cases within : place < inputs.length
  · have present : (place, result inputs[place]) ∈ results :=
      each.mem_iff.2 (List.mem_map.2 ⟨_, mem_numbered inputs place within, rfl⟩)
    rw [foldl_fillSlot_of_mem _ _ once _ _ present (by rw [slots]; exact within),
      List.getElem?_map, List.getElem?_eq_getElem within]
    rfl
  · have beyond : inputs.length ≤ place := Nat.le_of_not_lt within
    rw [List.getElem?_eq_none (by rw [foldl_fillSlot_length, slots]; exact beyond),
      List.getElem?_eq_none (by rw [List.length_map]; exact beyond)]

theorem run_eq_map (threads : Nat) (schedule : List Nat) (inputs : List Input)
    (positive : 1 ≤ threads) :
    run workload threads schedule inputs =
      inputs.map (fun input => some (workload.result input)) :=
  deliver_numbered inputs _ workload.result
    (collect_follow workload threads schedule inputs positive)

end Pool

end LedgerLexer
