import ConcurrentTcp.Server.ThreadPool
import ConcurrentTcp.Server.Threads
import Mathlib.Data.List.ReduceOption
import Mathlib.Data.List.Perm.Basic

/-!
From the stack of completed packets to the workers (`handle_packets` in
`server/main.cpp`).

`handle_packets` moves the top of the stack into a closure, calls `dispatch_async` with it
and only then pops the stack, while other threads use the pool. `packets_conserved` says
that nothing is lost or doubled on the way. The server thread of `threadSystem` does one
round of this loop in one step; `threadSystem_refines_dispatch` is that it may.
-/

namespace ConcurrentTcp

open Transition Monitor

/-! ### The system -/

/-- What is dispatched: the closure of `handle_packets`, or anything else. -/
inductive PoolTask (Packet Other : Type) where
  | processPacket (packet : Option Packet)
  | other (task : Other)
deriving DecidableEq, Repr

/-- Where the server thread is: extracting packets, at the test of the loop, and in the
loop with a closure made, in `dispatch_async` after the enqueue, and behind it. -/
inductive DispatchPc (Packet : Type) where
  | extract
  | test
  | moved (packet : Option Packet)
  | queued
  | notified
deriving DecidableEq, Repr

/-- The caller `none` of the pool is the server thread. A pointer that was moved from is
`none`. -/
structure DispatchState (Packet Other Caller Thread : Type) where
  pool : PoolState (Option Caller) Thread (PoolTask Packet Other)
  completedPackets : List (Option Packet)
  pc : DispatchPc Packet

def DispatchState.initial (Packet Other Caller Thread : Type) :
    DispatchState Packet Other Caller Thread where
  pool := .initial _ _ _
  completedPackets := []
  pc := .extract

inductive DispatchLabel (Packet Other Caller Thread : Type) where
  | push (packet : Packet)
  | server
  | pool (l : PoolLabel (Option Caller) Thread (PoolTask Packet Other))

section Dispatch

variable {Packet Other Caller Thread : Type}

/-- A step of the pool that is not the server thread's. -/
def PoolLabel.elsewhere : PoolLabel (Option Caller) Thread (PoolTask Packet Other) → Prop
  | .enqueue (some _) (.other _) => True
  | .enqueue _ _ => False
  | .notifyOne c => c ≠ none
  | _ => True

variable [DecidableEq Caller] [DecidableEq Thread]

inductive DispatchStep : DispatchState Packet Other Caller Thread →
    DispatchLabel Packet Other Caller Thread → DispatchState Packet Other Caller Thread →
    Prop where
  | push {s : DispatchState Packet Other Caller Thread} {packet : Packet} : s.pc = .extract →
      DispatchStep s (.push packet)
        { s with completedPackets := some packet :: s.completedPackets }
  | handlePackets {s : DispatchState Packet Other Caller Thread} : s.pc = .extract →
      DispatchStep s .server { s with pc := .test }
  /-- `[_p = std::move(p)]` -/
  | move {s : DispatchState Packet Other Caller Thread} {top : Option Packet}
      {rest : List (Option Packet)} : s.pc = .test → s.completedPackets = top :: rest →
      DispatchStep s .server { s with completedPackets := none :: rest, pc := .moved top }
  | dispatchAsync {s : DispatchState Packet Other Caller Thread} {packet : Option Packet}
      {pool : PoolState (Option Caller) Thread (PoolTask Packet Other)} : s.pc = .moved packet →
      PoolStep s.pool (.enqueue none (.processPacket packet)) pool →
      DispatchStep s (.pool (.enqueue none (.processPacket packet)))
        { s with pool := pool, pc := .queued }
  | notifyOne {s : DispatchState Packet Other Caller Thread}
      {pool : PoolState (Option Caller) Thread (PoolTask Packet Other)} : s.pc = .queued →
      PoolStep s.pool (.notifyOne none) pool →
      DispatchStep s (.pool (.notifyOne none)) { s with pool := pool, pc := .notified }
  | pop {s : DispatchState Packet Other Caller Thread} {top : Option Packet}
      {rest : List (Option Packet)} : s.pc = .notified → s.completedPackets = top :: rest →
      DispatchStep s .server { s with completedPackets := rest, pc := .test }
  | handled {s : DispatchState Packet Other Caller Thread} : s.pc = .test →
      s.completedPackets = [] → DispatchStep s .server { s with pc := .extract }
  /-- A worker, another call of `dispatch_async`, or `stop`. -/
  | elsewhere {s : DispatchState Packet Other Caller Thread}
      {l : PoolLabel (Option Caller) Thread (PoolTask Packet Other)}
      {pool : PoolState (Option Caller) Thread (PoolTask Packet Other)} : l.elsewhere →
      PoolStep s.pool l pool → DispatchStep s (.pool l) { s with pool := pool }

end Dispatch

/-- The server thread and the pool over any packets, other tasks, callers and workers. -/
def dispatchSystem (Packet Other Caller Thread : Type) [DecidableEq Caller]
    [DecidableEq Thread] :
    System (DispatchState Packet Other Caller Thread)
      (DispatchLabel Packet Other Caller Thread) where
  init := fun s => s = .initial Packet Other Caller Thread
  step := DispatchStep

/-! ### Places of a packet -/

section Places

variable {Packet Other Caller Thread : Type}

@[simp] def PoolTask.packet? : PoolTask Packet Other → Option Packet
  | .processPacket packet => packet
  | .other _ => none

@[simp] def DispatchPc.moving : DispatchPc Packet → List Packet
  | .moved packet => packet.toList
  | _ => []

def DispatchState.inStack (s : DispatchState Packet Other Caller Thread) : List Packet :=
  s.completedPackets.reduceOption

def DispatchState.inQueue (s : DispatchState Packet Other Caller Thread) : List Packet :=
  s.pool.tasks.filterMap PoolTask.packet?

abbrev DispatchMove (Packet Other Caller Thread : Type) : Type :=
  Move (DispatchState Packet Other Caller Thread) (DispatchLabel Packet Other Caller Thread)

@[simp] def DispatchLabel.pushed? : DispatchLabel Packet Other Caller Thread → Option Packet
  | .push packet => some packet
  | _ => none

def pushedPackets (moves : List (DispatchMove Packet Other Caller Thread)) : List Packet :=
  moves.filterMap (·.label.pushed?)

def DispatchMove.pool? (m : DispatchMove Packet Other Caller Thread) :
    Option (PoolMove (Option Caller) Thread (PoolTask Packet Other)) :=
  match m.label with
  | .pool l => some ⟨m.pre.pool, l, m.post.pool⟩
  | _ => none

/-- The steps of the pool. -/
def poolMoves (moves : List (DispatchMove Packet Other Caller Thread)) :
    List (PoolMove (Option Caller) Thread (PoolTask Packet Other)) :=
  moves.filterMap DispatchMove.pool?

/-- The packets that workers took. -/
def takenPackets (moves : List (DispatchMove Packet Other Caller Thread)) : List Packet :=
  (takenTasks (poolMoves moves)).filterMap (·.2.packet?)

/-- The packet that a step puts into the queue. -/
@[simp] def DispatchLabel.queued? : DispatchLabel Packet Other Caller Thread → Option Packet
  | .pool l => l.dispatched?.bind PoolTask.packet?
  | _ => none

end Places

/-! ### Conservation -/

section Conservation

variable {Packet Other Caller Thread : Type} [DecidableEq Caller] [DecidableEq Thread]
  {s t : DispatchState Packet Other Caller Thread}
  {l : DispatchLabel Packet Other Caller Thread}
  {moves : List (DispatchMove Packet Other Caller Thread)}

/-- A step of the whole is one of the pool or leaves it. -/
theorem DispatchStep.pool (step : DispatchStep s l t) :
    (∃ pl, l = .pool pl ∧ PoolStep s.pool pl t.pool) ∨
      (∀ pl, l ≠ .pool pl) ∧ t.pool = s.pool := by
  cases step with
  | dispatchAsync hpc step => exact .inl ⟨_, rfl, step⟩
  | notifyOne hpc step => exact .inl ⟨_, rfl, step⟩
  | elsewhere hl step => exact .inl ⟨_, rfl, step⟩
  | _ => exact .inr ⟨by simp, rfl⟩

/-- The pool does what a pool can do. -/
theorem dispatchSystem_refines_pool
    (run : Run (dispatchSystem Packet Other Caller Thread) s moves t) :
    Run (poolSystem (Option Caller) Thread (PoolTask Packet Other)) s.pool (poolMoves moves)
      t.pool := by
  induction run with
  | nil => exact .nil _
  | @cons s t u l moves step _ ih =>
      rcases DispatchStep.pool step with ⟨pl, rfl, next⟩ | ⟨hl, same⟩
      · exact .cons next ih
      · have hnone : DispatchMove.pool? ⟨s, l, t⟩ = none := by
          cases l with
          | pool pl => exact absurd rfl (hl pl)
          | push packet => rfl
          | server => rfl
        rw [poolMoves, List.filterMap_cons, hnone, ← same]
        exact ih

/-- Inside the loop the top of the stack has been moved from. -/
def TopMoved (s : DispatchState Packet Other Caller Thread) : Prop :=
  s.pc = .extract ∨ s.pc = .test ∨ ∃ rest, s.completedPackets = none :: rest

theorem DispatchStep.topMoved (step : DispatchStep s l t) (h : TopMoved s) : TopMoved t := by
  cases step with
  | push hpc => exact .inl hpc
  | handlePackets => exact .inr (.inl rfl)
  | move => exact .inr (.inr ⟨_, rfl⟩)
  | dispatchAsync hpc => simpa [TopMoved, hpc] using h
  | notifyOne hpc => simpa [TopMoved, hpc] using h
  | pop => exact .inr (.inl rfl)
  | handled => exact .inl rfl
  | elsewhere => exact h

/-- A step moves packets from one place to the next. -/
theorem DispatchStep.packets (step : DispatchStep s l t) (h : TopMoved s) :
    (t.inStack ++ t.pc.moving ++ l.queued?.toList).Perm
      (s.inStack ++ s.pc.moving ++ l.pushed?.toList) := by
  unfold DispatchState.inStack
  cases step with
  | push hpc =>
      simp only [hpc, DispatchPc.moving, DispatchLabel.queued?, DispatchLabel.pushed?,
        List.reduceOption_cons_of_some, Option.toList_none, Option.toList_some, List.append_nil]
      exact (List.perm_append_singleton _ _).symm
  | handlePackets hpc => simp [hpc]
  | @move top rest hpc hstack =>
      cases top with
      | none => simp [hpc, hstack]
      | some packet => simp [hpc, hstack]
  | dispatchAsync hpc => simp [hpc]
  | notifyOne hpc => simp [hpc]
  | @pop top rest hpc hstack =>
      obtain ⟨rest', htop⟩ : ∃ rest, s.completedPackets = none :: rest := by
        simpa [TopMoved, hpc] using h
      obtain ⟨rfl, rfl⟩ := List.cons.inj (hstack.symm.trans htop)
      simp [hpc, hstack]
  | handled hpc hstack => simp [hpc]
  | @elsewhere l pool hl step =>
      have hnone : (DispatchLabel.pool l : DispatchLabel Packet Other Caller Thread).queued? =
          none := by
        cases l with
        | enqueue c task => cases c <;> cases task <;> first | rfl | exact hl.elim
        | _ => rfl
      rw [hnone]
      exact .refl _

/-- What was pushed lies in the stack, is being moved, or has been dispatched. -/
theorem pushed_perm_dispatched
    (run : Run (dispatchSystem Packet Other Caller Thread) (.initial ..) moves t) :
    (pushedPackets moves).Perm (t.inStack ++ t.pc.moving ++
      (dispatchedTasks (poolMoves moves)).filterMap PoolTask.packet?) := by
  apply And.right (a := TopMoved t)
  apply run.history (P := fun past s => TopMoved s ∧ (pushedPackets past).Perm
    (s.inStack ++ s.pc.moving ++
      (dispatchedTasks (poolMoves past)).filterMap PoolTask.packet?)) _ ⟨.inl rfl, .refl _⟩
  rintro past s l t ⟨top, now⟩ step
  refine ⟨DispatchStep.topMoved step top, ?_⟩
  have here := DispatchStep.packets step top
  have hpushed : pushedPackets (past ++ [⟨s, l, t⟩]) = pushedPackets past ++ l.pushed?.toList := by
    unfold pushedPackets
    rw [List.filterMap_append]
    cases l <;> rfl
  have hqueued : (dispatchedTasks (poolMoves (past ++ [⟨s, l, t⟩]))).filterMap PoolTask.packet? =
      (dispatchedTasks (poolMoves past)).filterMap PoolTask.packet? ++ l.queued?.toList := by
    unfold poolMoves
    rw [List.filterMap_append, dispatchedTasks_append, List.filterMap_append]
    congr 1
    cases l with
    | pool l =>
        cases l with
        | enqueue c task => cases task with
            | processPacket packet => cases packet <;> rfl
            | other => rfl
        | _ => rfl
    | _ => rfl
  have swap : ∀ xs ys zs : List Packet, (xs ++ ys ++ zs).Perm (xs ++ zs ++ ys) := by
    intro xs ys zs
    simpa using List.perm_append_comm.append_left xs
  rw [hpushed, hqueued, ← List.append_assoc]
  apply (now.append_right _).trans
  apply (swap _ _ _).trans
  exact (here.symm.append_right _).trans (swap _ _ _)

/-- Nothing is lost and nothing is served twice, whatever the interleaving and for any number of
workers and callers: tasks are taken in the order in which they were dispatched, each packet
that was pushed is in one place, and a worker that has returned leaves nothing behind of what
was dispatched before the stop. -/
theorem packets_conserved
    (run : Run (dispatchSystem Packet Other Caller Thread) (.initial ..) moves t) :
    (takenTasks (poolMoves moves)).map Prod.snd ++ t.pool.tasks =
        dispatchedTasks (poolMoves moves) ∧
      (pushedPackets moves).Perm
        (t.inStack ++ t.pc.moving ++ t.inQueue ++ takenPackets moves) ∧
      ((pushedPackets moves).Nodup →
        (t.inStack ++ t.pc.moving ++ t.inQueue ++ takenPackets moves).Nodup) ∧
      ∀ past m rest c, moves = past ++ m :: rest → m.label = .pool (.setStop c) →
        m.pre.pool.stopFlag = false → (∃ i, t.pool.workers i = .returned) →
        dispatchedTasks (poolMoves past) <+: (takenTasks (poolMoves moves)).map Prod.snd := by
  have pool := dispatchSystem_refines_pool run
  have order := taken_in_order pool
  have places : (pushedPackets moves).Perm
      (t.inStack ++ t.pc.moving ++ t.inQueue ++ takenPackets moves) := by
    have pushed := pushed_perm_dispatched run
    rw [← order, List.filterMap_append, List.filterMap_map] at pushed
    apply pushed.trans
    rw [List.append_assoc (t.inStack ++ t.pc.moving)]
    exact List.perm_append_comm.append_left _
  refine ⟨order, places, places.nodup, ?_⟩
  rintro past ⟨u, l, v⟩ rest c rfl rfl running ⟨i, returned⟩
  have split : poolMoves (past ++ ⟨u, .pool (.setStop c), v⟩ :: rest) =
      poolMoves past ++ ⟨u.pool, .setStop c, v.pool⟩ :: poolMoves rest := by
    simp [poolMoves, DispatchMove.pool?]
  rw [split] at pool ⊢
  exact taken_of_returned pool running returned

end Conservation

/-- One packet and a stop; the worker takes the packet before it returns. -/
theorem packets_conserved_one :
    ∃ moves t, Run (dispatchSystem Nat Unit Unit (Fin 1)) (.initial ..) moves t ∧
      t.pool.workers 0 = .returned ∧ (pushedPackets moves).Perm (takenPackets moves) ∧
      [.processPacket (some 7)] <+: (takenTasks (poolMoves moves)).map Prod.snd := by
  have run : Run (dispatchSystem Nat Unit Unit (Fin 1)) (.initial ..) _ _ :=
    .cons (@DispatchStep.push _ _ _ _ _ _ _ 7 rfl) <|
    .cons (.handlePackets rfl) <|
    .cons (.move rfl rfl) <|
    .cons (.dispatchAsync rfl (.enqueue (by decide))) <|
    .cons (.elsewhere (l := .take 0 _) trivial (.take rfl (by decide) rfl)) <|
    .cons (.notifyOne rfl (.notifyOne (by decide) notifyOne_empty)) <|
    .cons (.pop rfl rfl) <|
    .cons (.elsewhere (l := .setStop none) trivial (.setStop (by decide) (by decide))) <|
    .cons (.elsewhere (l := .finish 0) trivial (.finish rfl)) <|
    .one (.elsewhere (l := .leave 0) trivial (.leave rfl (by decide) rfl rfl))
  obtain ⟨-, places, -, stopped⟩ := packets_conserved run
  exact ⟨_, _, run, rfl, places,
    stopped [_, _, _, _, _, _, _] _ _ none rfl rfl rfl ⟨0, rfl⟩⟩

/-! ### The threads of the server -/

section Threads

/-- A worker of `threadSystem` in the pool. -/
def Worker.pool : Worker → PoolWorker (PoolTask Task Empty)
  | .idle => .ready
  | .taken task | .inProgress task _ => .running (.processPacket (some task))

def poolWorkers (workers : List Worker) (i : Fin 6) : PoolWorker (PoolTask Task Empty) :=
  (workers.getD i .idle).pool

def ServerPc.dispatch : ServerPc → DispatchPc Task
  | .handlePackets => .test
  | _ => .extract

@[simp] theorem ServerPc.dispatch_receive (it : Nat) : (ServerPc.receive it).dispatch = .extract :=
  rfl

@[simp] theorem ServerPc.dispatch_extract (it packetSize : Nat) :
    (ServerPc.extract it packetSize).dispatch = .extract := rfl

@[simp] theorem ServerPc.dispatch_handlePending : ServerPc.handlePending.dispatch = .extract := rfl

@[simp] theorem ServerPc.dispatch_resume (it : Nat) (next : Option Nat) :
    (ServerPc.resume it next).dispatch = .extract := by
  cases next <;> rfl

/-- A state of `threadSystem`, in which nobody waits for a notification. -/
def ServerState.dispatch (s : ServerState) : DispatchState Task Empty Empty (Fin 6) where
  pool :=
    { PoolState.initial (Option Empty) (Fin 6) (PoolTask Task Empty) with
      tasks := s.tasks.map fun task => .processPacket (some task)
      workers := poolWorkers s.workers }
  completedPackets := s.completedPackets.map some
  pc := s.pc.dispatch

section Workers

variable (front back : List Worker) {w : Worker} (w' : Worker)

theorem poolWorkers_self (h : front.length < 6) :
    poolWorkers (front ++ w' :: back) ⟨front.length, h⟩ = w'.pool := by
  simp [poolWorkers]

/-- One worker changes. -/
theorem poolWorkers_set (h : front.length < 6) :
    poolWorkers (front ++ w' :: back) =
      Function.update (poolWorkers (front ++ w :: back)) ⟨front.length, h⟩ w'.pool := by
  funext i
  by_cases hi : i = ⟨front.length, h⟩
  · subst hi
    rw [Function.update_self, poolWorkers_self]
  · have hne : i.val ≠ front.length := fun heq => hi (Fin.ext heq)
    rw [Function.update_of_ne hi, poolWorkers, poolWorkers]
    rcases Nat.lt_or_gt_of_ne hne with hlt | hgt
    · rw [List.getD_append _ _ _ _ hlt, List.getD_append _ _ _ _ hlt]
    · obtain ⟨n, hn⟩ := Nat.exists_eq_add_of_lt hgt
      rw [List.getD_append_right _ _ _ _ (by omega), List.getD_append_right _ _ _ _ (by omega), hn,
        show front.length + n + 1 - front.length = n + 1 by omega, List.getD_cons_succ,
        List.getD_cons_succ]

/-- A worker that stays in its task. -/
theorem poolWorkers_same (hw : w'.pool = w.pool) :
    poolWorkers (front ++ w' :: back) = poolWorkers (front ++ w :: back) := by
  funext i
  by_cases h : front.length < 6
  · rw [poolWorkers_set front back (w := w) w' h, hw, ← poolWorkers_self front back w h,
      Function.update_eq_self]
  · have hlt : i.val < front.length := by omega
    rw [poolWorkers, poolWorkers, List.getD_append _ _ _ _ hlt, List.getD_append _ _ _ _ hlt]

end Workers

variable {users : DatabaseHandler} {s t : ServerState} {l : ThreadLabel}

theorem ThreadStep.workers_length (step : ThreadStep users s l t) :
    t.workers.length = s.workers.length := by
  cases step with
  | take htasks hworkers => simp [hworkers]
  | start hworkers => simp [hworkers]
  | finish fuel tls events out hworkers => cases out <;> simp [ServerState.finish, hworkers]
  | _ => rfl

/-- A step of the threads is a round of the loop, a step of a worker, or none. -/
theorem ThreadStep.dispatch (step : ThreadStep users s l t) (hworkers : s.workers.length = 6) :
    ∃ moves, Run (dispatchSystem Task Empty Empty (Fin 6)) s.dispatch moves t.dispatch := by
  have reached : ∀ {moves u}, Run (dispatchSystem Task Empty Empty (Fin 6)) s.dispatch moves u →
      t.dispatch = u →
      ∃ moves, Run (dispatchSystem Task Empty Empty (Fin 6)) s.dispatch moves t.dispatch := by
    rintro moves u run rfl
    exact ⟨moves, run⟩
  have pc : ∀ {at_ : ServerPc}, s.pc = at_ → s.dispatch.pc = at_.dispatch :=
    fun h => congrArg ServerPc.dispatch h
  have hfull : ∀ {front back : List Worker} {w : Worker}, s.workers = front ++ w :: back →
      front.length < 6 := by
    intro front back w h
    simp [h] at hworkers
    omega
  have hworker : ∀ {front back : List Worker} {w : Worker} (h : s.workers = front ++ w :: back),
      s.dispatch.pool.workers ⟨front.length, hfull h⟩ = w.pool := by
    intro front back w h
    rw [← poolWorkers_self front back w (hfull h), ← h]
    rfl
  cases step with
  | accept => exact reached (.nil _) rfl
  | wouldBlock hpc => exact reached (.nil _) (by simp [ServerState.dispatch, hpc])
  | disconnect events hpc =>
      exact reached (.nil _) (by simp [ServerState.dispatch, ServerState.disconnect])
  | recv hpc => exact reached (.nil _) (by simp [ServerState.dispatch, ServerState.recv, hpc])
  | receiveEnd hpc => exact reached (.one (.handlePackets (pc hpc))) rfl
  | @push it packetSize c connection hpc =>
      apply reached (.one (@DispatchStep.push _ _ _ _ _ _ _ (s.nextTask c connection packetSize)
        (pc hpc)))
      simp [ServerState.dispatch, ServerState.push, hpc]
  | extractEnd hpc => exact reached (.nil _) (by simp [ServerState.dispatch, hpc])
  | @dispatchAsync task rest hpc hcompleted =>
      have hstack : s.dispatch.completedPackets = some task :: rest.map some := by
        simp [ServerState.dispatch, hcompleted]
      -- One round: the closure, the enqueue, a notification of nobody, and the pop.
      have round : Run (dispatchSystem Task Empty Empty (Fin 6)) s.dispatch _ _ :=
        .cons (.move (pc hpc) hstack) <|
        .cons (.dispatchAsync rfl (.enqueue (Finset.notMem_empty _))) <|
        .cons (.notifyOne rfl (.notifyOne (Finset.mem_insert_self _ _) notifyOne_empty)) <|
        .one (.pop rfl rfl)
      apply reached round
      simp only [ServerState.dispatch, hpc, ServerPc.dispatch, PoolState.initial, List.map_append]
      rfl
  | handlePacketsEnd hpc hcompleted =>
      have hstack : s.dispatch.completedPackets = [] := by
        simp [ServerState.dispatch, hcompleted]
      exact reached (.one (.handled (pc hpc) hstack)) rfl
  | activate hpc => exact reached (.nil _) rfl
  | handlePendingEnd hpc => exact reached (.nil _) (by simp [ServerState.dispatch, hpc])
  | @take task rest front back htasks hidle =>
      have hqueue : s.dispatch.pool.tasks = .processPacket (some task) ::
          rest.map fun task => .processPacket (some task) := by
        simp [ServerState.dispatch, htasks]
      have hset := poolWorkers_set front back (w := .idle) (.taken task) (hfull hidle)
      apply reached (.one (.elsewhere (l := .take _ _) trivial
        (.take (hworker hidle) (Finset.notMem_empty _) hqueue)))
      simp only [ServerState.dispatch, hset, hidle]
      rfl
  | @start task receiveBuffer front back htaken =>
      have hsame := poolWorkers_same front back (w := .taken task)
        (.inProgress task (getPacketType receiveBuffer)) rfl
      exact reached (.nil _) (by simp only [ServerState.dispatch, htaken, hsame])
  | @finish task packetType connection front back fuel tls events out hbusy =>
      have hset := poolWorkers_set front back (w := .inProgress task packetType) .idle
        (hfull hbusy)
      apply reached (.one (.elsewhere (l := .finish _) trivial (.finish (hworker hbusy))))
      cases out <;>
      · simp only [ServerState.dispatch, ServerState.finish, hset, hbusy]
        rfl

/-- Whatever the threads reach, the pool and its server thread reach. -/
theorem threadSystem_refines_dispatch (h : Reachable (threadSystem users) s) :
    Reachable (dispatchSystem Task Empty Empty (Fin 6)) s.dispatch := by
  have both : s.workers.length = 6 ∧
      Reachable (dispatchSystem Task Empty Empty (Fin 6)) s.dispatch := by
    refine Reachable.invariant (I := fun s => s.workers.length = 6 ∧
      Reachable (dispatchSystem Task Empty Empty (Fin 6)) s.dispatch) ?_ ?_ h
    · rintro start rfl
      refine ⟨rfl, .initial ?_⟩
      have idle : poolWorkers (List.replicate 6 .idle) = fun _ => .ready := by
        funext i
        match i with
        | 0 | 1 | 2 | 3 | 4 | 5 => rfl
      show DispatchState.mk { PoolState.initial _ _ _ with
        workers := poolWorkers (List.replicate 6 .idle) } [] .extract = _
      rw [idle]
      rfl
    · rintro s l t ⟨hworkers, now⟩ ⟨-, step⟩
      obtain ⟨moves, run⟩ := step.dispatch hworkers
      obtain ⟨start, past, hstart, reached⟩ := now
      exact ⟨step.workers_length.trans hworkers, start, past ++ moves, hstart, reached.append run⟩
  exact both.2

end Threads

end ConcurrentTcp
