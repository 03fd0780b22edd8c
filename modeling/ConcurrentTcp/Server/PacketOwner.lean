import ConcurrentTcp.Server.AdminPrivilege
import ConcurrentTcp.Server.Threads

/-!
The connection of a queued packet.

A packet in the stack, in the queue or with a worker refers to its connection,
which the server thread owns and destroys when `recv` fails, without a look at
the packets. `owned_iff` says that the packets keep their connections in exactly
the runs in which no connection with a packet in flight is destroyed.
-/

namespace ConcurrentTcp

open Interaction Transition

/-- The connection is held in `active_connections` and has not been destroyed. -/
def ServerState.Alive (s : ServerState) (c : ConnId) : Prop :=
  c ∈ s.activeConnections ∧ ∃ connection, s.connections c = some connection

/-- The connection of every packet in flight is alive. -/
def ServerState.Owned (s : ServerState) : Prop :=
  ∀ task ∈ s.inFlight, s.Alive task.packet.connection

/-- A connection is only destroyed when none of its packets is in flight. -/
def DestroysIdle (s : ServerState) : ThreadLabel → Prop
  | .disconnect c => ∀ task ∈ s.inFlight, task.packet.connection ≠ c
  | _ => True

section Step

variable {users : DatabaseHandler} {s t : ServerState} {l : ThreadLabel}

theorem alive_update {c d : ConnId} {connections : ConnId → Option ConnectionWrapper}
    (new : ConnectionWrapper) (h : ∃ connection, connections d = some connection) :
    ∃ connection, Function.update connections c (some new) d = some connection := by
  by_cases hd : d = c
  · exact ⟨new, by rw [hd, Function.update_self]⟩
  · rwa [Function.update_of_ne hd]

/-- Only its own destruction takes a live connection away. -/
theorem ThreadStep.alive (step : ThreadStep users s l t) {c : ConnId} (now : s.Alive c)
    (other : l ≠ .disconnect c) : t.Alive c := by
  obtain ⟨active, live⟩ := now
  cases step with
  | accept hfree hnew => exact ⟨active, alive_update _ live⟩
  | @disconnect it d connection g events hpc hit hlive run =>
      have hne : c ≠ d := by
        rintro rfl
        exact other rfl
      refine ⟨List.mem_eraseIdx_iff_getElem?.mpr ?_, ?_⟩
      · obtain ⟨i, hi⟩ := List.mem_iff_getElem?.mp active
        refine ⟨i, ?_, hi⟩
        rintro rfl
        rw [hit] at hi
        exact hne (Option.some.inj hi).symm
      · simpa [ServerState.disconnect, Function.update_of_ne hne] using live
  | recv hpc hit hlive hne hfits => exact ⟨active, alive_update _ live⟩
  | push hpc hit hlive hfits hne => exact ⟨active, alive_update _ live⟩
  | activate hpc hpending => exact ⟨List.mem_append_left _ active, live⟩
  | finish fuel tls events out hworkers hlive run hfuel =>
      cases out with
      | ok u => exact ⟨active, alive_update _ live⟩
      | error e => exact ⟨active, live⟩
  | _ => exact ⟨active, live⟩

/-- A packet is taken from a connection that is alive. -/
theorem ThreadStep.alive_of_push {task : Task} (step : ThreadStep users s (.push task) t) :
    s.Alive task.packet.connection := by
  cases step with
  | push hpc hit hlive hfits hne => exact ⟨List.mem_of_getElem? hit, _, hlive⟩

theorem ThreadStep.dead_of_disconnect {c : ConnId} (step : ThreadStep users s (.disconnect c) t) :
    t.inFlight = s.inFlight ∧ ¬ t.Alive c := by
  cases step with
  | disconnect events hpc hit hlive run =>
      refine ⟨rfl, ?_⟩
      rintro ⟨-, connection, hconnection⟩
      simp [ServerState.disconnect] at hconnection

/-- From a state where the packets have their connections, exactly the steps that
destroy idle connections lead to such a state. -/
theorem owned_step_iff (now : s.Owned) (step : ThreadStep users s l t) :
    t.Owned ↔ DestroysIdle s l := by
  constructor
  · intro owned
    unfold DestroysIdle
    split
    · rename_i c
      intro task hmem hc
      obtain ⟨same, dead⟩ := step.dead_of_disconnect
      apply dead
      rw [← hc]
      exact owned task (same ▸ hmem)
    · trivial
  · intro idle task hmem
    rcases step.inFlight task hmem with hold | rfl
    · apply step.alive (now task hold)
      rintro rfl
      exact idle task hold rfl
    · exact step.alive step.alive_of_push (by simp)

end Step

theorem owned_initial : ServerState.initial.Owned := by
  intro task hmem
  cases hmem

/-- In every run of the threads, each packet in flight has its connection in every
state reached exactly when the steps only destroy idle connections. -/
theorem owned_iff {users : DatabaseHandler} {moves : List (Move ServerState ThreadLabel)}
    {s : ServerState} (run : Run (threadSystem users) .initial moves s) :
    (∀ m ∈ moves, m.post.Owned) ↔ ∀ m ∈ moves, DestroysIdle m.pre m.label := by
  have exact_step : ∀ u l v, u.Owned → (threadSystem users).step u l v →
      (v.Owned ↔ DestroysIdle u l) := fun _ _ _ now step => owned_step_iff now step.2
  exact run.invariant_iff exact_step owned_initial

/-- A client sends a ping and closes; its packet is in the queue. -/
theorem queued_packet_outlives_connection :
    ¬ ∀ s, Reachable (threadSystem exampleUsers) s → s.Owned := by
  have step : ∀ {s t l}, Reachable (threadSystem exampleUsers) s → s.terminated = false →
      ThreadStep exampleUsers s l t → Reachable (threadSystem exampleUsers) t :=
    fun h running next => h.step ⟨running, next⟩
  have accepted := step (.initial rfl) rfl (@ThreadStep.accept exampleUsers _ 0 5 rfl rfl)
  have received := step accepted rfl (.receiveEnd rfl (Nat.zero_le _))
  have handled := step received rfl (.handlePacketsEnd rfl rfl)
  have active := step handled rfl (.activate rfl rfl)
  have ready := step active rfl (.handlePendingEnd rfl rfl)
  have ping := step ready rfl
    (@ThreadStep.recv exampleUsers _ 0 0 _ pingTask.packet.frame rfl rfl rfl (by decide)
      (by decide))
  have pushed := step ping rfl (.push rfl rfl rfl (by decide) (by decide))
  have extracted := step pushed rfl (.receiveEnd rfl (by decide))
  have queued := step extracted rfl (.dispatchAsync rfl rfl)
  have handledAgain := step queued rfl (.handlePacketsEnd rfl rfl)
  have again := step handledAgain rfl (.handlePendingEnd rfl rfl)
  have closed := step again rfl (.disconnect _ rfl rfl rfl
    (.call (0 : Int) (.call (0 : Int) (.call (none : Option (List Str)) (.ret _)))))
  intro owned
  obtain ⟨-, connection, hlive⟩ := owned _ closed pingTask (List.mem_singleton.mpr rfl)
  cases hlive

/-- A ping that is served while its connection lives. -/
theorem owned_ping :
    ∃ moves s, Run (threadSystem exampleUsers) .initial moves s ∧ s.started = [pingTask] ∧
      ∀ m ∈ moves, m.post.Owned := by
  obtain ⟨s, ⟨start, moves, rfl, run, idle⟩, hstarted, -⟩ := exists_ping_run exampleUsers
    DestroysIdle (fun _ _ _ => trivial) (fun _ => trivial) (fun _ _ _ => trivial)
    (fun _ _ => trivial) (fun _ _ => trivial) (fun _ _ _ => trivial) (fun _ _ _ _ _ => trivial)
  exact ⟨moves, s, run, hstarted, (owned_iff run).mpr idle⟩

end ConcurrentTcp
