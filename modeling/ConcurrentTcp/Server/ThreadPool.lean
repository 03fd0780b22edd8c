import ConcurrentTcp.Base.Monitor
import ConcurrentTcp.Base.Transition
import Mathlib.Data.List.Infix
import Mathlib.Logic.Function.Basic

/-!
The thread pool (`server/thread_pool.hpp`).

Workers, calls of `dispatch_async` and calls of `stop` take steps in any order. A section
under `queueMutex` is one step: it tests the predicate of `wait` and goes on, or it
blocks. `notify_one` and `notify_all` come after the lock has been released, so they are
steps of their own. Tasks are taken in the order in which they were dispatched
(`taken_in_order`), and no task waits while all workers sleep (`no_stranded_task`).
-/

namespace ConcurrentTcp

open Transition Monitor

/-! ### The pool -/

/-- A thread of the pool: at its section under `queueMutex`, inside `task()`, or past its
`return`. -/
inductive PoolWorker (Task : Type) where
  | ready
  | running (task : Task)
  | returned
deriving DecidableEq, Repr

/-- `waiting` are the workers blocked in `condition.wait`. A call of `dispatch_async` is
in `notifying` between its enqueue and its `notify_one`; a call of `stop` is in `stopping`
between setting the flag and its `notify_all`, and then joins. -/
structure PoolState (Caller Thread Task : Type) where
  tasks : List Task
  stopFlag : Bool
  workers : Thread → PoolWorker Task
  waiting : Finset Thread
  notifying : Finset Caller
  stopping : Finset Caller
  joining : Finset Caller

/-- `start` has made the workers. -/
def PoolState.initial (Caller Thread Task : Type) : PoolState Caller Thread Task where
  tasks := []
  stopFlag := false
  workers := fun _ => .ready
  waiting := ∅
  notifying := ∅
  stopping := ∅
  joining := ∅

inductive PoolLabel (Caller Thread Task : Type) where
  | enqueue (c : Caller) (task : Task)
  | notifyOne (c : Caller)
  | wait (i : Thread)
  | wake
  | take (i : Thread) (task : Task)
  | finish (i : Thread)
  | leave (i : Thread)
  | setStop (c : Caller)
  | notifyAll (c : Caller)
  | joined (c : Caller)

/-! ### What was dispatched and taken -/

section History

variable {Caller Thread Task : Type}

@[simp] def PoolLabel.dispatched? : PoolLabel Caller Thread Task → Option Task
  | .enqueue _ task => some task
  | _ => none

@[simp] def PoolLabel.taken? : PoolLabel Caller Thread Task → Option (Thread × Task)
  | .take i task => some (i, task)
  | _ => none

abbrev PoolMove (Caller Thread Task : Type) : Type :=
  Move (PoolState Caller Thread Task) (PoolLabel Caller Thread Task)

/-- The tasks that were dispatched, in order. -/
def dispatchedTasks (moves : List (PoolMove Caller Thread Task)) : List Task :=
  moves.filterMap (·.label.dispatched?)

/-- The tasks that were taken, in order, each with its worker. -/
def takenTasks (moves : List (PoolMove Caller Thread Task)) : List (Thread × Task) :=
  moves.filterMap (·.label.taken?)

@[simp] theorem dispatchedTasks_append (first second : List (PoolMove Caller Thread Task)) :
    dispatchedTasks (first ++ second) = dispatchedTasks first ++ dispatchedTasks second :=
  List.filterMap_append

@[simp] theorem takenTasks_append (first second : List (PoolMove Caller Thread Task)) :
    takenTasks (first ++ second) = takenTasks first ++ takenTasks second :=
  List.filterMap_append

end History

/-! ### Steps -/

section Pool

variable {Caller Thread Task : Type} [DecidableEq Caller] [DecidableEq Thread]

inductive PoolStep : PoolState Caller Thread Task → PoolLabel Caller Thread Task →
    PoolState Caller Thread Task → Prop where
  /-- `dispatch_async`, under the lock. -/
  | enqueue {s : PoolState Caller Thread Task} {c : Caller} {task : Task} : c ∉ s.notifying →
      PoolStep s (.enqueue c task)
        { s with tasks := s.tasks ++ [task], notifying := insert c s.notifying }
  | notifyOne {s : PoolState Caller Thread Task} {c : Caller} {waiting : Finset Thread} :
      c ∈ s.notifying → NotifyOne s.waiting waiting →
      PoolStep s (.notifyOne c)
        { s with waiting := waiting, notifying := s.notifying.erase c }
  /-- The predicate of `wait` is false. -/
  | wait {s : PoolState Caller Thread Task} {i : Thread} : s.workers i = .ready → i ∉ s.waiting →
      s.stopFlag = false → s.tasks = [] →
      PoolStep s (.wait i) { s with waiting := insert i s.waiting }
  /-- Spurious wake-ups. -/
  | wake {s : PoolState Caller Thread Task} {waiting : Finset Thread} : waiting ⊆ s.waiting →
      PoolStep s .wake { s with waiting := waiting }
  | take {s : PoolState Caller Thread Task} {i : Thread} {task : Task} {rest : List Task} :
      s.workers i = .ready → i ∉ s.waiting → s.tasks = task :: rest →
      PoolStep s (.take i task)
        { s with tasks := rest, workers := Function.update s.workers i (.running task) }
  | finish {s : PoolState Caller Thread Task} {i : Thread} {task : Task} :
      s.workers i = .running task →
      PoolStep s (.finish i) { s with workers := Function.update s.workers i .ready }
  /-- `if(stopFlag && tasks.empty()) return;` -/
  | leave {s : PoolState Caller Thread Task} {i : Thread} : s.workers i = .ready →
      i ∉ s.waiting → s.stopFlag = true → s.tasks = [] →
      PoolStep s (.leave i) { s with workers := Function.update s.workers i .returned }
  /-- `stop`, under the lock. -/
  | setStop {s : PoolState Caller Thread Task} {c : Caller} : c ∉ s.stopping → c ∉ s.joining →
      PoolStep s (.setStop c) { s with stopFlag := true, stopping := insert c s.stopping }
  | notifyAll {s : PoolState Caller Thread Task} {c : Caller} : c ∈ s.stopping →
      PoolStep s (.notifyAll c)
        { s with
          waiting := ∅
          stopping := s.stopping.erase c
          joining := insert c s.joining }
  | joined {s : PoolState Caller Thread Task} {c : Caller} : c ∈ s.joining →
      (∀ i, s.workers i = .returned) →
      PoolStep s (.joined c) { s with joining := s.joining.erase c }

/-- The pool over any threads, callers and tasks. -/
def poolSystem (Caller Thread Task : Type) [DecidableEq Caller] [DecidableEq Thread] :
    System (PoolState Caller Thread Task) (PoolLabel Caller Thread Task) where
  init := fun s => s = .initial Caller Thread Task
  step := PoolStep

/-! ### The queue -/

variable {s t : PoolState Caller Thread Task} {l : PoolLabel Caller Thread Task}

/-- What a step does to the queue: a dispatched task goes to its end, a taken one comes
from its front. -/
theorem PoolStep.tasks (step : PoolStep s l t) :
    s.tasks ++ l.dispatched?.toList = (l.taken?.map Prod.snd).toList ++ t.tasks := by
  cases step with
  | enqueue => rfl
  | take hready hawake htasks => simp [htasks]
  | _ => simp

/-- What was taken and what is in the queue, in this order, is what was dispatched. -/
theorem taken_in_order {moves : List (PoolMove Caller Thread Task)}
    (run : Run (poolSystem Caller Thread Task) (.initial Caller Thread Task) moves t) :
    (takenTasks moves).map Prod.snd ++ t.tasks = dispatchedTasks moves := by
  apply Run.history (P := fun past s => (takenTasks past).map Prod.snd ++ s.tasks =
    dispatchedTasks past) _ run rfl
  intro past s l t now step
  have queue := PoolStep.tasks step
  have htaken : takenTasks [(⟨s, l, t⟩ : PoolMove Caller Thread Task)] = l.taken?.toList := by
    cases l <;> rfl
  have hdispatched : dispatchedTasks [(⟨s, l, t⟩ : PoolMove Caller Thread Task)] =
      l.dispatched?.toList := by
    cases l <;> rfl
  have hsnd : l.taken?.toList.map Prod.snd = (l.taken?.map Prod.snd).toList := by
    cases l <;> rfl
  rw [takenTasks_append, dispatchedTasks_append, ← now, htaken, hdispatched, List.map_append,
    hsnd, List.append_assoc, List.append_assoc, queue]

/-! ### Shutdown -/

/-- Workers leave only when they are told to, and a call that is about to notify all has
set the flag. -/
structure StopSound (s : PoolState Caller Thread Task) : Prop where
  stopping : s.stopping.Nonempty → s.stopFlag = true
  returned : ∀ i, s.workers i = .returned → s.stopFlag = true

theorem PoolStep.stopFlag (step : PoolStep s l t) (h : s.stopFlag = true) :
    t.stopFlag = true := by
  cases step with
  | setStop => rfl
  | _ => exact h

/-- A worker that is past its `return` was so before, or has just left. -/
theorem PoolStep.returned (step : PoolStep s l t) {i : Thread} (h : t.workers i = .returned) :
    s.workers i = .returned ∨ (s.stopFlag = true ∧ s.tasks = [] ∧ l = .leave i) := by
  cases step with
  | @take j task rest hready hawake htasks =>
      by_cases hi : i = j
      · subst hi
        simp at h
      · left
        simpa [Function.update_of_ne hi] using h
  | @finish j task hrunning =>
      by_cases hi : i = j
      · subst hi
        simp at h
      · left
        simpa [Function.update_of_ne hi] using h
  | @leave j hready hawake hstop htasks =>
      by_cases hi : i = j
      · subst hi
        exact .inr ⟨hstop, htasks, rfl⟩
      · left
        simpa [Function.update_of_ne hi] using h
  | _ => exact .inl h

theorem PoolStep.stopSound (step : PoolStep s l t) (h : StopSound s) : StopSound t where
  stopping := by
    intro hstopping
    cases step with
    | setStop => rfl
    | notifyAll => exact h.stopping (hstopping.mono (Finset.erase_subset _ _))
    | _ => exact h.stopping hstopping
  returned := by
    intro i hi
    rcases step.returned hi with before | ⟨hstop, -, -⟩
    · exact step.stopFlag (h.returned i before)
    · exact step.stopFlag hstop

theorem stopSound_of_reachable (h : Reachable (poolSystem Caller Thread Task) s) :
    StopSound s := by
  apply Reachable.invariant (I := StopSound) _ _ h
  · rintro start rfl
    exact ⟨fun h => absurd h Finset.not_nonempty_empty, by rintro i ⟨⟩⟩
  · intro s l t now step
    exact PoolStep.stopSound step now

/-- When a worker has returned, what was dispatched before the stop has been taken: it
left when the queue was empty, after that. -/
theorem taken_of_returned {past rest : List (PoolMove Caller Thread Task)}
    {m : PoolMove Caller Thread Task} {i : Thread}
    (run : Run (poolSystem Caller Thread Task) (.initial Caller Thread Task) (past ++ m :: rest) t)
    (running : m.pre.stopFlag = false) (returned : t.workers i = .returned) :
    dispatchedTasks past <+: (takenTasks (past ++ m :: rest)).map Prod.snd := by
  obtain ⟨u, before, after⟩ := run.append_inv
  cases after with
  | @cons _ v _ l rest step later =>
      have sound : StopSound u := stopSound_of_reachable ⟨_, past, rfl, before⟩
      have hrunning : u.stopFlag = false := running
      -- Along the moves after the stop, what it claims of the worker that left first.
      have key := later.history
        (P := fun rest t =>
          Run (poolSystem Caller Thread Task) (.initial Caller Thread Task)
              (past ++ ⟨u, l, v⟩ :: rest) t ∧
            ((∃ j, t.workers j = .returned) →
              dispatchedTasks past <+: (takenTasks (past ++ ⟨u, l, v⟩ :: rest)).map Prod.snd))
        ?keeps ?start
      · exact key.2 ⟨i, returned⟩
      · rintro rest s l' t ⟨run, kept⟩ step
        have split : past ++ ⟨u, l, v⟩ :: (rest ++ [⟨s, l', t⟩]) =
            (past ++ ⟨u, l, v⟩ :: rest) ++ [⟨s, l', t⟩] := by simp
        rw [split, takenTasks_append, List.map_append]
        refine ⟨run.append (.one step), ?_⟩
        rintro ⟨j, hj⟩
        rcases PoolStep.returned step hj with earlier | ⟨-, htasks, -⟩
        · exact (kept ⟨j, earlier⟩).trans (List.prefix_append _ _)
        · have all := taken_in_order run
          rw [htasks, List.append_nil, dispatchedTasks_append] at all
          rw [all, List.append_assoc]
          exact List.prefix_append _ _
      · refine ⟨before.append (.one step), ?_⟩
        rintro ⟨j, hj⟩
        rcases PoolStep.returned step hj with earlier | ⟨hstop, -, -⟩
        · exact absurd (sound.returned j earlier) (by simp [hrunning])
        · exact absurd hstop (by simp [hrunning])

/-! ### Wake-ups -/

/-- A task in the queue has a worker awake, or its notification is still to come. -/
def TasksSignalled (s : PoolState Caller Thread Task) : Prop :=
  Signalled (s.tasks ≠ []) s.notifying.Nonempty s.waiting

theorem PoolStep.tasksSignalled [Nonempty Thread] (step : PoolStep s l t)
    (h : TasksSignalled s) : TasksSignalled t := by
  cases step with
  | enqueue => exact .of_pending (Finset.insert_nonempty _ _)
  | notifyOne hc notify => exact .of_notify notify
  | wait hready hawake hstop htasks => exact .of_idle (not_not.mpr htasks)
  | wake hsubset => exact h.mono id id hsubset
  | take hready hawake htasks => exact .of_awake hawake
  | notifyAll =>
      obtain ⟨i⟩ := ‹Nonempty Thread›
      exact .of_awake (Finset.notMem_empty i)
  | _ => exact h

/-- Once all have been notified nobody sleeps. -/
structure Awake (s : PoolState Caller Thread Task) : Prop where
  stopFlag : s.stopFlag = true
  waiting : s.waiting = ∅

theorem PoolStep.awake (step : PoolStep s l t) (h : Awake s) : Awake t where
  stopFlag := step.stopFlag h.stopFlag
  waiting := by
    cases step with
    | notifyOne hc notify => exact Finset.subset_empty.mp (h.waiting ▸ notify.subset)
    | wait hready hawake hstop => exact absurd h.stopFlag (by simp [hstop])
    | wake hsubset => exact Finset.subset_empty.mp (h.waiting ▸ hsubset)
    | notifyAll => rfl
    | _ => exact h.waiting

/-- In every reachable state of any workers and callers, also with spurious wake-ups: no task lies
in the queue while every worker sleeps and no notification is to come, and after the
`notify_all` of a stop no worker sleeps. -/
theorem no_stranded_task [Nonempty Thread] (h : Reachable (poolSystem Caller Thread Task) s) :
    ¬ (s.tasks ≠ [] ∧ (∀ i, i ∈ s.waiting) ∧ s.notifying = ∅) ∧
      ∀ moves t, Run (poolSystem Caller Thread Task) s moves t →
        (∃ m ∈ moves, ∃ c, m.label = .notifyAll c) → t.waiting = ∅ := by
  constructor
  · rintro ⟨htasks, asleep, hnotifying⟩
    have signalled : TasksSignalled s := by
      apply Reachable.invariant (I := TasksSignalled) _ _ h
      · rintro start rfl
        exact .of_idle (not_not.mpr rfl)
      · intro s l t now step
        exact PoolStep.tasksSignalled step now
    rcases signalled htasks with ⟨c, hc⟩ | ⟨i, awake⟩
    · simp [hnotifying] at hc
    · exact awake (asleep i)
  · rintro moves t run ⟨m, hm, c, hlabel⟩
    obtain ⟨past, rest, rfl⟩ := List.append_of_mem hm
    obtain ⟨u, before, after⟩ := run.append_inv
    obtain ⟨start, first, hstart, reached⟩ := h
    have sound : StopSound u :=
      stopSound_of_reachable ⟨start, first ++ past, hstart, reached.append before⟩
    cases after with
    | @cons _ v _ l rest step later =>
        obtain rfl : l = .notifyAll c := hlabel
        have awake : Awake v := by
          cases step with
          | notifyAll hc => exact ⟨sound.stopping ⟨c, hc⟩, rfl⟩
        exact (later.invariant (I := Awake) (fun s l t now step => PoolStep.awake step now)
          awake).1.waiting

end Pool

/-- The only worker sleeps when a task is dispatched; after the notification it does not,
nor after a stop. -/
theorem no_stranded_task_one :
    ∃ s, Reachable (poolSystem Nat (Fin 1) Nat) s ∧ s.tasks = [7] ∧
      ¬ ((∀ i, i ∈ s.waiting) ∧ s.notifying = ∅) ∧
      ∃ moves t, Run (poolSystem Nat (Fin 1) Nat) s moves t ∧ t.stopFlag = true ∧
        t.waiting = ∅ := by
  have initial : Reachable (poolSystem Nat (Fin 1) Nat) (.initial Nat (Fin 1) Nat) := .initial rfl
  have asleep := initial.step (.wait (i := 0) rfl (by decide) rfl rfl)
  have queued := asleep.step (@PoolStep.enqueue Nat (Fin 1) Nat _ _ _ 0 7 (by decide))
  have told : Reachable (poolSystem Nat (Fin 1) Nat)
      { PoolState.initial Nat (Fin 1) Nat with tasks := [7] } :=
    queued.step (.notifyOne (c := 0) (by decide) ⟨by decide, fun _ => by decide⟩)
  have stops : Run (poolSystem Nat (Fin 1) Nat)
      { PoolState.initial Nat (Fin 1) Nat with tasks := [7] } _ _ :=
    .cons (.setStop (c := 0) (by decide) (by decide)) (.one (.notifyAll (c := 0) (by decide)))
  obtain ⟨awake, stopped⟩ := no_stranded_task told
  exact ⟨_, told, rfl, fun h => awake ⟨by decide, h⟩, _, _, stops, rfl,
    stopped _ _ stops ⟨_, List.mem_cons_of_mem _ List.mem_cons_self, 0, rfl⟩⟩

end ConcurrentTcp
