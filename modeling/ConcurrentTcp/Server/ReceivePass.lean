import ConcurrentTcp.Server.Threads
import Mathlib.Data.List.Perm.Subperm

/-!
Passes over the connections (`receive_all_connections` and `handle_pending_connections` in
`server/main.cpp`).

`receiveAllConnections` walks the vector of active connections with an iterator and erases
from it on the way. `receiveAllConnections_eq` is what a whole pass comes to: each
connection is polled once and by itself. `receiveAllConnections_run` finds the pass among
the runs of the threads, and `connections_conserved` follows connections from the accept
thread to their removal in all of these.
-/

namespace ConcurrentTcp

open Interaction Transition

/-! ### One connection -/

/-- What `recv` on a connection comes to. -/
inductive RecvOutcome where
  | data (bytes : List UInt8)
  | wouldBlock
  | error
  | endOfStream
deriving DecidableEq, Repr

/-- The connection is erased. -/
def RecvOutcome.lost : RecvOutcome → Bool
  | .error | .endOfStream => true
  | _ => false

/-- What becomes of a connection that is kept, and the packets that are pushed. -/
def ConnectionWrapper.poll (connection : ConnectionWrapper) :
    RecvOutcome → List (List UInt8) × ConnectionWrapper
  | .data bytes => receiveConnection connection bytes
  | _ => ([], connection)

/-! ### The loop -/

/-- An element of `active_connections`. -/
structure ActiveConnection where
  id : ConnId
  connection : ConnectionWrapper

/-- A pass: the vector, the index of the iterator, the stack of completed packets with its
top first, and the connections on which `recv` has been called. -/
structure ReceivePass where
  active : List ActiveConnection
  it : Nat
  completedPackets : List ConnectionBuffer
  recvs : List ConnId

/-- The body of the loop, for the connection at the iterator. After `erase` the iterator is
at the next one. -/
def ReceivePass.iterate (s : ReceivePass) (a : ActiveConnection) : RecvOutcome → ReceivePass
  | .wouldBlock => { s with it := s.it + 1, recvs := s.recvs ++ [a.id] }
  | .error | .endOfStream =>
      { s with active := s.active.eraseIdx s.it, recvs := s.recvs ++ [a.id] }
  | .data bytes =>
      let received := receiveConnection a.connection bytes
      { active := s.active.set s.it { a with connection := received.2 }
        it := s.it + 1
        completedPackets := received.1.foldl
          (fun stack frame => { connection := a.id, frame := frame } :: stack) s.completedPackets
        recvs := s.recvs ++ [a.id] }

/-- An iteration leaves fewer connections behind the iterator. -/
theorem ReceivePass.iterate_left (s : ReceivePass) (a : ActiveConnection) (outcome : RecvOutcome)
    (h : s.it < s.active.length) :
    (s.iterate a outcome).active.length - (s.iterate a outcome).it < s.active.length - s.it := by
  cases outcome with
  | wouldBlock =>
      simp only [iterate]
      omega
  | data bytes =>
      simp only [iterate, List.length_set]
      omega
  | error =>
      simp only [iterate, List.length_eraseIdx_of_lt h]
      omega
  | endOfStream =>
      simp only [iterate, List.length_eraseIdx_of_lt h]
      omega

/-- `receive_all_connections`, from the iterator on. -/
def receiveAllConnections (outcome : ConnId → RecvOutcome) (s : ReceivePass) : ReceivePass :=
  if h : s.it < s.active.length then
    let a := s.active.get ⟨s.it, h⟩
    receiveAllConnections outcome (s.iterate a (outcome a.id))
  else s
termination_by s.active.length - s.it
decreasing_by exact s.iterate_left _ _ h

section Pass

/-- A connection that is kept. -/
def ActiveConnection.kept (a : ActiveConnection) (outcome : RecvOutcome) :
    Option ActiveConnection :=
  if outcome.lost then none else some { a with connection := (a.connection.poll outcome).2 }

/-- The packets that a connection gets. -/
def ActiveConnection.packets (a : ActiveConnection) (outcome : RecvOutcome) :
    List ConnectionBuffer :=
  (a.connection.poll outcome).1.map fun frame => { connection := a.id, frame := frame }

/-- The connection at the iterator goes before it, or away. -/
theorem ReceivePass.iterate_eq (front rest : List ActiveConnection) (a : ActiveConnection)
    (completed : List ConnectionBuffer) (recvs : List ConnId) (outcome : RecvOutcome) :
    ReceivePass.iterate ⟨front ++ a :: rest, front.length, completed, recvs⟩ a outcome =
      ⟨(front ++ (a.kept outcome).toList) ++ rest, (front ++ (a.kept outcome).toList).length,
        (a.packets outcome).reverse ++ completed, recvs ++ [a.id]⟩ := by
  cases outcome with
  | wouldBlock =>
      simp [iterate, ActiveConnection.kept, ActiveConnection.packets, RecvOutcome.lost,
        ConnectionWrapper.poll]
  | data bytes =>
      simp [iterate, ActiveConnection.kept, ActiveConnection.packets, RecvOutcome.lost,
        ConnectionWrapper.poll]
  | error =>
      simp [iterate, ActiveConnection.kept, ActiveConnection.packets, RecvOutcome.lost,
        ConnectionWrapper.poll, List.eraseIdx_append_of_length_le]
  | endOfStream =>
      simp [iterate, ActiveConnection.kept, ActiveConnection.packets, RecvOutcome.lost,
        ConnectionWrapper.poll, List.eraseIdx_append_of_length_le]

variable (outcome : ConnId → RecvOutcome)

/-- The connections that are kept, in their order. -/
def keptConnections (active : List ActiveConnection) : List ActiveConnection :=
  active.filterMap fun a => a.kept (outcome a.id)

/-- The packets that are pushed, in their order. -/
def receivedPackets (active : List ActiveConnection) : List ConnectionBuffer :=
  active.flatMap fun a => a.packets (outcome a.id)

/-- The pass from the iterator on; what is before it stays. -/
theorem receiveAllConnections_eq (front rest : List ActiveConnection)
    (completed : List ConnectionBuffer) (recvs : List ConnId) :
    receiveAllConnections outcome ⟨front ++ rest, front.length, completed, recvs⟩ =
      ⟨front ++ keptConnections outcome rest, (front ++ keptConnections outcome rest).length,
        (receivedPackets outcome rest).reverse ++ completed, recvs ++ rest.map (·.id)⟩ := by
  induction rest generalizing front completed recvs with
  | nil =>
      rw [receiveAllConnections, dif_neg (by simp)]
      simp [keptConnections, receivedPackets]
  | cons a rest ih =>
      have hget : (front ++ a :: rest).get ⟨front.length, by simp⟩ = a := by simp
      have hkept : keptConnections outcome (a :: rest) =
          (a.kept (outcome a.id)).toList ++ keptConnections outcome rest := by
        cases hkept : a.kept (outcome a.id) <;> simp [keptConnections, hkept]
      rw [receiveAllConnections, dif_pos (by simp)]
      simp only [hget]
      rw [ReceivePass.iterate_eq, ih, hkept]
      simp [receivedPackets]

/-- What is kept has the names of what is not lost. -/
theorem id_keptConnections (active : List ActiveConnection) :
    (keptConnections outcome active).map (·.id) =
      (active.map (·.id)).filter fun c => !(outcome c).lost := by
  induction active with
  | nil => rfl
  | cons a rest ih =>
      cases hlost : (outcome a.id).lost <;>
        simp_all [keptConnections, ActiveConnection.kept]

end Pass

/-! ### Buffers -/

section Buffers

/-- The receive buffer of a connection, with another session. -/
def ConnectionWrapper.withSession (connection : ConnectionWrapper) (session : Session) :
    ConnectionWrapper := { connection with toSession := session }

theorem ConnectionWrapper.shift_withSession (connection : ConnectionWrapper) (session : Session)
    (packetSize : Nat) :
    (connection.withSession session).shift packetSize =
      ((connection.shift packetSize).1.withSession session, (connection.shift packetSize).2) := by
  unfold shift withSession
  dsimp only
  split
  · rfl
  · split <;> rfl

/-- The extraction loop works on the receive buffer alone. -/
theorem extractPackets_withSession (connection : ConnectionWrapper) (session : Session)
    (packetSize : Nat) :
    extractPackets (connection.withSession session) packetSize =
      ((extractPackets connection packetSize).1,
        (extractPackets connection packetSize).2.withSession session) := by
  induction connection, packetSize using extract_induction with
  | stop connection packetSize h =>
      have h' : ¬ (packetSize ≤ (connection.withSession session).bufferPos ∧ packetSize ≠ 0) := h
      rw [extractPackets_stop h, extractPackets_stop h']
  | last connection packetSize h hnext =>
      have h' : packetSize ≤ (connection.withSession session).bufferPos ∧ packetSize ≠ 0 := h
      have hshift := connection.shift_withSession session packetSize
      have hnext' : ((connection.withSession session).shift packetSize).2 = none := by
        rw [hshift]
        exact hnext
      rw [extractPackets_last h hnext, extractPackets_last h' hnext', hshift]
      rfl
  | more connection packetSize packetSize' h hnext ih =>
      have h' : packetSize ≤ (connection.withSession session).bufferPos ∧ packetSize ≠ 0 := h
      have hshift := connection.shift_withSession session packetSize
      have hnext' : ((connection.withSession session).shift packetSize).2 = some packetSize' := by
        rw [hshift]
        exact hnext
      rw [extractPackets_more h hnext, extractPackets_more h' hnext', hshift, ih]
      rfl

/-- What a connection receives depends on its receive buffer and its own `recv` only. -/
theorem poll_withSession (connection : ConnectionWrapper) (session : Session)
    (outcome : RecvOutcome) :
    (connection.withSession session).poll outcome =
      ((connection.poll outcome).1, (connection.poll outcome).2.withSession session) := by
  cases outcome with
  | data bytes =>
      have hrecv : (connection.withSession session).recv bytes =
          (connection.recv bytes).withSession session := rfl
      simp only [ConnectionWrapper.poll, receiveConnection, hrecv]
      by_cases hshort : (connection.recv bytes).bufferPos < 4
      · have hshort' : ((connection.recv bytes).withSession session).bufferPos < 4 := hshort
        rw [if_pos hshort, if_pos hshort']
      · have hlong : ¬ ((connection.recv bytes).withSession session).bufferPos < 4 := hshort
        rw [if_neg hshort, if_neg hlong]
        exact extractPackets_withSession _ _ _
  | _ => rfl

end Buffers

/-! ### A pass in a run of the threads -/

section Follows

variable (users : DatabaseHandler) {s : ServerState} {it : Nat} {c : ConnId}

/-- The server thread is at the iterator of the pass, with the same connections and
packets. -/
structure ServerState.Follows (s : ServerState) (pass : ReceivePass) : Prop where
  running : s.terminated = false
  pc : s.pc = .receive pass.it
  active : s.activeConnections = pass.active.map (·.id)
  connections : ∀ a ∈ pass.active, s.connections a.id = some a.connection
  completed : s.completedPackets.map (·.packet) = pass.completedPackets

/-- The thread `s` has got to the next connection: `c` has become `connection`, and `frames`
have been pushed. -/
structure ServerState.Iterated (s : ServerState) (it : Nat) (c : ConnId)
    (connection : ConnectionWrapper) (frames : List (List UInt8)) (t : ServerState) : Prop where
  running : t.terminated = false
  pc : t.pc = .receive (it + 1)
  active : t.activeConnections = s.activeConnections
  connections : t.connections = Function.update s.connections c (some connection)
  completed : t.completedPackets.map (·.packet) =
    (frames.map fun frame => ⟨c, frame⟩).reverse ++ s.completedPackets.map (·.packet)

/-- The steps of the extraction loop. -/
theorem extract_run (connection : ConnectionWrapper) (packetSize : Nat)
    (running : s.terminated = false) (hpc : s.pc = .extract it packetSize)
    (hit : s.activeConnections[it]? = some c) (hlive : s.connections c = some connection) :
    ∃ moves t, Run (threadSystem users) s moves t ∧
      s.Iterated it c (extractPackets connection packetSize).2
        (extractPackets connection packetSize).1 t := by
  induction connection, packetSize using extract_induction generalizing s with
  | stop connection packetSize h =>
      rw [extractPackets_stop h]
      refine ⟨_, _, .one ⟨running, .extractEnd hpc hit hlive h⟩, running, rfl, rfl, ?_, rfl⟩
      rw [← hlive, Function.update_eq_self]
  | last connection packetSize h hnext =>
      rw [extractPackets_last h hnext]
      refine ⟨_, _, .one ⟨running, .push hpc hit hlive h.1 h.2⟩, running, ?_, rfl, rfl, rfl⟩
      show ServerPc.resume it (connection.shift packetSize).2 = _
      rw [hnext]
      rfl
  | more connection packetSize packetSize' h hnext ih =>
      rw [extractPackets_more h hnext]
      have hpc' : (s.push it c connection packetSize).pc = .extract it packetSize' := by
        show ServerPc.resume it (connection.shift packetSize).2 = _
        rw [hnext]
        rfl
      obtain ⟨moves, t, run, done⟩ := ih (s := s.push it c connection packetSize) running hpc' hit
        (Function.update_self ..)
      refine ⟨_, t, .cons ⟨running, .push hpc hit hlive h.1 h.2⟩ run, done.running, done.pc,
        done.active, ?_, ?_⟩
      · rw [done.connections]
        exact Function.update_idem ..
      · rw [done.completed]
        simp [ServerState.push, ServerState.nextTask]

/-- The steps after `recv` returned data. -/
theorem receive_run {connection : ConnectionWrapper} {bytes : List UInt8}
    (running : s.terminated = false) (hpc : s.pc = .receive it)
    (hit : s.activeConnections[it]? = some c) (hlive : s.connections c = some connection)
    (hne : bytes ≠ []) (hfits : bytes.length ≤ uint16Max - connection.bufferPos) :
    ∃ moves t, Run (threadSystem users) s moves t ∧
      s.Iterated it c (receiveConnection connection bytes).2
        (receiveConnection connection bytes).1 t := by
  have step : (threadSystem users).step s _ _ := ⟨running, .recv hpc hit hlive hne hfits⟩
  by_cases hshort : (connection.recv bytes).bufferPos < 4
  · rw [receiveConnection, if_pos hshort]
    refine ⟨_, _, .one step, running, ?_, rfl, rfl, rfl⟩
    show ServerPc.resume it (if _ then none else _) = _
    rw [if_pos hshort]
    rfl
  · rw [receiveConnection, if_neg hshort]
    have hpc' : (s.recv it c connection bytes).pc =
        .extract it (connection.recv bytes).buffer.totalSize := by
      show ServerPc.resume it (if _ then none else _) = _
      rw [if_neg hshort]
      rfl
    obtain ⟨moves, t, run, done⟩ := extract_run users (s := s.recv it c connection bytes) _ _
      running hpc' hit (Function.update_self ..)
    refine ⟨_, t, .cons step run, done.running, done.pc, done.active, ?_, done.completed⟩
    rw [done.connections]
    exact Function.update_idem ..

/-- The outcome can occur: data fits the receive buffer, and a connection that is erased is
destroyed normally. -/
def ActiveConnection.Admits (a : ActiveConnection) : RecvOutcome → Prop
  | .data bytes => bytes ≠ [] ∧ bytes.length ≤ uint16Max - a.connection.bufferPos
  | .wouldBlock => True
  | .error | .endOfStream =>
      ∀ g, ∃ events g', Exec (destroyConnection a.connection.toSession g) events (.ok g')

/-- The next connection of the pass, when only what became of the last one has changed. -/
theorem ServerState.Follows.next {t : ServerState} {front rest : List ActiveConnection}
    {a : ActiveConnection} {completed completed' : List ConnectionBuffer}
    {recvs recvs' : List ConnId}
    (follows : s.Follows ⟨front ++ a :: rest, front.length, completed, recvs⟩)
    (kept : Option ActiveConnection) (hnodup : ((front ++ a :: rest).map (·.id)).Nodup)
    (hid : ∀ b ∈ kept, b.id = a.id ∧ t.connections a.id = some b.connection)
    (running : t.terminated = false) (hpc : t.pc = .receive (front.length + kept.toList.length))
    (hactive : t.activeConnections = (front ++ kept.toList ++ rest).map (·.id))
    (hother : ∀ d ≠ a.id, t.connections d = s.connections d)
    (hcompleted : t.completedPackets.map (·.packet) = completed') :
    t.Follows ⟨front ++ kept.toList ++ rest, (front ++ kept.toList).length, completed',
      recvs'⟩ := by
  refine ⟨running, ?_, hactive, ?_, hcompleted⟩
  · rw [hpc, List.length_append]
  · intro b hb
    have hmem : b ∈ front ++ rest ∨ b ∈ kept := by
      simp only [List.mem_append, Option.mem_toList] at hb ⊢
      tauto
    rcases hmem with hmem | hkept
    · have hne : b.id ≠ a.id := by
        have hfirst := (List.perm_middle.map ActiveConnection.id).nodup_iff.mp hnodup
        have hnew := (List.nodup_cons.mp hfirst).1
        rintro heq
        exact hnew (heq ▸ List.mem_map_of_mem hmem)
      rw [hother _ hne]
      apply follows.connections
      simp only [List.mem_append, List.mem_cons] at hmem ⊢
      tauto
    · obtain ⟨heq, hlive⟩ := hid b hkept
      rw [heq, hlive]

/-- An iteration of the pass. -/
theorem iterate_run {front rest : List ActiveConnection} {a : ActiveConnection}
    {completed : List ConnectionBuffer} {recvs : List ConnId} {outcome : RecvOutcome}
    (follows : s.Follows ⟨front ++ a :: rest, front.length, completed, recvs⟩)
    (hnodup : ((front ++ a :: rest).map (·.id)).Nodup) (admits : a.Admits outcome) :
    ∃ moves t, Run (threadSystem users) s moves t ∧
      t.Follows (ReceivePass.iterate ⟨front ++ a :: rest, front.length, completed, recvs⟩ a
        outcome) := by
  have running := follows.running
  have hpc : s.pc = .receive front.length := follows.pc
  have hlive : s.connections a.id = some a.connection := follows.connections a (by simp)
  have hactive : s.activeConnections = front.map (·.id) ++ a.id :: rest.map (·.id) := by
    rw [follows.active]
    simp
  have hit : s.activeConnections[front.length]? = some a.id := by
    rw [hactive]
    simp
  have lost : a.Admits .error → ∃ moves t, Run (threadSystem users) s moves t ∧
        t.Follows ⟨front ++ [] ++ rest, (front ++ []).length, completed, recvs ++ [a.id]⟩ := by
    intro destroyed
    obtain ⟨events, g, destroyed⟩ := destroyed s.g
    refine ⟨_, _, .one ⟨running, .disconnect events hpc hit hlive destroyed⟩, ?_⟩
    refine follows.next none hnodup nofun running hpc ?_ (fun d hd => ?_)
      follows.completed
    · show s.activeConnections.eraseIdx front.length = _
      rw [hactive]
      simp [List.eraseIdx_append_of_length_le]
    · exact Function.update_of_ne hd ..
  rw [ReceivePass.iterate_eq]
  cases outcome with
  | wouldBlock =>
      have hlt := (List.getElem?_eq_some_iff.mp hit).1
      refine ⟨_, _, .one ⟨running, .wouldBlock hpc hlt⟩, ?_⟩
      refine follows.next (some a) hnodup ?_ running rfl ?_ (fun _ _ => rfl)
        follows.completed
      · rintro b ⟨⟩
        exact ⟨rfl, hlive⟩
      · exact hactive.trans (by simp)
  | data bytes =>
      obtain ⟨moves, t, run, done⟩ := receive_run users running hpc hit hlive admits.1
        admits.2
      refine ⟨moves, t, run, ?_⟩
      refine follows.next (some { a with connection := _ }) hnodup ?_ done.running done.pc
        ?_ (fun d hd => ?_) ?_
      · rintro b ⟨⟩
        refine ⟨rfl, ?_⟩
        rw [done.connections, Function.update_self]
        rfl
      · rw [done.active, hactive]
        simp
      · rw [done.connections, Function.update_of_ne hd]
      · rw [done.completed, follows.completed]
        rfl
  | error => exact lost admits
  | endOfStream => exact lost admits

/-- A pass is a run of the server thread. -/
theorem receiveAllConnections_run {outcome : ConnId → RecvOutcome}
    {front rest : List ActiveConnection} {completed : List ConnectionBuffer} {recvs : List ConnId}
    (follows : s.Follows ⟨front ++ rest, front.length, completed, recvs⟩)
    (hnodup : ((front ++ rest).map (·.id)).Nodup)
    (admits : ∀ a ∈ rest, a.Admits (outcome a.id)) :
    ∃ moves t, Run (threadSystem users) s moves t ∧
      t.Follows (receiveAllConnections outcome ⟨front ++ rest, front.length, completed,
        recvs⟩) := by
  induction rest generalizing s front completed recvs with
  | nil =>
      rw [receiveAllConnections_eq]
      exact ⟨[], s, .nil s, by simpa [keptConnections, receivedPackets] using follows⟩
  | cons a rest ih =>
      have hget : (front ++ a :: rest).get ⟨front.length, by simp⟩ = a := by simp
      obtain ⟨here, others⟩ := List.forall_mem_cons.mp admits
      obtain ⟨first, t, run, follows⟩ := iterate_run users follows hnodup here
      rw [ReceivePass.iterate_eq] at follows
      have hkept : ((front ++ (a.kept (outcome a.id)).toList ++ rest).map (·.id)).Nodup := by
        refine hnodup.sublist ?_
        cases hlost : (outcome a.id).lost <;> simp [ActiveConnection.kept, hlost]
      obtain ⟨second, u, more, follows⟩ := ih follows hkept others
      refine ⟨first ++ second, u, run.append more, ?_⟩
      rw [receiveAllConnections, dif_pos (by simp)]
      simp only [hget]
      rw [ReceivePass.iterate_eq]
      exact follows

end Follows

/-! ### The threads -/

section Threads

/-- The connections that `accept` returned, in this order. -/
def acceptedConnections (moves : List (Move ServerState ThreadLabel)) : List ConnId :=
  moves.filterMap fun m => match m.label with
    | .accept c _ => some c
    | _ => none

/-- The connections that were erased, in this order. -/
def removedConnections (moves : List (Move ServerState ThreadLabel)) : List ConnId :=
  moves.filterMap fun m => match m.label with
    | .disconnect c => some c
    | _ => none

variable {users : DatabaseHandler} {s t : ServerState} {l : ThreadLabel}
  {moves : List (Move ServerState ThreadLabel)}

theorem removedConnections_append (first second : List (Move ServerState ThreadLabel)) :
    removedConnections (first ++ second) = removedConnections first ++ removedConnections second :=
  List.filterMap_append

theorem acceptedConnections_append (first second : List (Move ServerState ThreadLabel)) :
    acceptedConnections (first ++ second) =
      acceptedConnections first ++ acceptedConnections second := List.filterMap_append

/-- A connection in one of the two lists is live, and in one place of one of them. -/
structure ServerState.Placed (s : ServerState) : Prop where
  nodup : (s.pendingConnections ++ s.activeConnections).Nodup
  live : ∀ c ∈ s.pendingConnections ++ s.activeConnections, s.connections c ≠ none

/-- What a step of a thread does to the two lists. -/
theorem ThreadStep.connection_cases (step : ThreadStep users s l t) :
    (∃ c socketFd, l = .accept c socketFd ∧ s.connections c = none ∧ t = s.accept c socketFd) ∨
    (∃ it c g, l = .disconnect c ∧ s.activeConnections[it]? = some c ∧
      t = s.disconnect it c g) ∨
    (∃ c, l = .server ∧ s.pendingConnections = c :: t.pendingConnections ∧
      t.activeConnections = s.activeConnections ++ [c] ∧ t.connections = s.connections) ∨
    ((∀ c socketFd, l ≠ .accept c socketFd) ∧ (∀ c, l ≠ .disconnect c) ∧
      t.pendingConnections = s.pendingConnections ∧ t.activeConnections = s.activeConnections ∧
      ∀ c, s.connections c ≠ none → t.connections c ≠ none) := by
  have update : ∀ (c : ConnId) (new : ConnectionWrapper) (d : ConnId), s.connections d ≠ none →
      Function.update s.connections c (some new) d ≠ none := by
    intro c new d hd
    by_cases heq : d = c
    · subst heq
      simp
    · rwa [Function.update_of_ne heq]
  cases step with
  | accept hfree hnew => exact .inl ⟨_, _, rfl, hfree, rfl⟩
  | disconnect events hpc hit hlive run => exact .inr (.inl ⟨_, _, _, rfl, hit, rfl⟩)
  | activate hpc hpending => exact .inr (.inr (.inl ⟨_, rfl, hpending, rfl, rfl⟩))
  | recv => exact .inr (.inr (.inr ⟨nofun, nofun, rfl, rfl, update _ _⟩))
  | push => exact .inr (.inr (.inr ⟨nofun, nofun, rfl, rfl, update _ _⟩))
  | finish fuel tls events out =>
      cases out with
      | ok u => exact .inr (.inr (.inr ⟨nofun, nofun, rfl, rfl, update _ _⟩))
      | error e => exact .inr (.inr (.inr ⟨nofun, nofun, rfl, rfl, fun _ hc => hc⟩))
  | _ => exact .inr (.inr (.inr ⟨nofun, nofun, rfl, rfl, fun _ hc => hc⟩))

theorem perm_eraseIdx {c : ConnId} {active : List ConnId} {it : Nat} (h : active[it]? = some c) :
    (active.eraseIdx it ++ [c]).Perm active := by
  obtain ⟨hit, rfl⟩ := List.getElem?_eq_some_iff.mp h
  exact (@List.perm_append_comm _ _ [active[it]]).trans
    (List.getElem_cons_eraseIdx_perm hit)

theorem ThreadStep.placed (step : ThreadStep users s l t) (h : s.Placed) : t.Placed := by
  obtain ⟨c, socketFd, rfl, hfree, rfl⟩ | ⟨it, c, g, rfl, hit, rfl⟩ |
    ⟨c, rfl, hpending, hactive, hconnections⟩ | ⟨-, -, hpending, hactive, hlive⟩ :=
    step.connection_cases
  · have hnew : c ∉ s.pendingConnections ++ s.activeConnections := fun hc => h.live c hc hfree
    constructor
    · exact List.nodup_cons.mpr ⟨hnew, h.nodup⟩
    · intro d hd
      show Function.update s.connections c _ d ≠ none
      rcases List.mem_cons.mp hd with rfl | hd
      · simp
      · rw [Function.update_of_ne (by rintro rfl; exact hnew hd)]
        exact h.live d hd
  · have erased := (perm_eraseIdx hit).append_left s.pendingConnections
    rw [← List.append_assoc] at erased
    have hnodup := erased.nodup_iff.mpr h.nodup
    obtain ⟨hrest, -, hdisjoint⟩ := List.nodup_append.mp hnodup
    constructor
    · exact hrest
    · intro d hd
      show Function.update s.connections c none d ≠ none
      rw [Function.update_of_ne (hdisjoint d hd c List.mem_cons_self)]
      exact h.live d (erased.mem_iff.mp (List.mem_append_left _ hd))
  · have moved : (t.pendingConnections ++ t.activeConnections).Perm
        (s.pendingConnections ++ s.activeConnections) := by
      rw [hpending, hactive, ← List.append_assoc]
      exact @List.perm_append_comm _ _ [c]
    refine ⟨moved.nodup_iff.mpr h.nodup, ?_⟩
    intro d hd
    rw [hconnections]
    exact h.live d (moved.mem_iff.mp hd)
  · refine ⟨hpending ▸ hactive ▸ h.nodup, ?_⟩
    rw [hpending, hactive]
    intro d hd
    exact hlive d (h.live d hd)

/-- What was accepted is pending, active or removed, and what has been active once is active
or removed from then on. -/
theorem ThreadStep.moved (step : ThreadStep users s l t) :
    (acceptedConnections [⟨s, l, t⟩] ++ s.pendingConnections ++ s.activeConnections).Perm
        (t.pendingConnections ++ t.activeConnections ++ removedConnections [⟨s, l, t⟩]) ∧
      s.activeConnections.Subperm (t.activeConnections ++ removedConnections [⟨s, l, t⟩]) := by
  obtain ⟨c, socketFd, rfl, -, rfl⟩ | ⟨it, c, g, rfl, hit, rfl⟩ |
    ⟨c, rfl, hpending, hactive, -⟩ | ⟨haccept, hdisconnect, hpending, hactive, -⟩ :=
    step.connection_cases
  · show (c :: (s.pendingConnections ++ s.activeConnections)).Perm
      (c :: (s.pendingConnections ++ s.activeConnections) ++ []) ∧
        s.activeConnections.Subperm (s.activeConnections ++ [])
    simp [List.Subperm.refl]
  · have erased := perm_eraseIdx hit
    refine ⟨?_, erased.symm.subperm⟩
    show (s.pendingConnections ++ s.activeConnections).Perm
      (s.pendingConnections ++ s.activeConnections.eraseIdx it ++ [c])
    rw [List.append_assoc]
    exact erased.symm.append_left _
  · constructor
    · show (s.pendingConnections ++ s.activeConnections).Perm
        (t.pendingConnections ++ t.activeConnections ++ [])
      rw [List.append_nil, hpending, hactive, ← List.append_assoc]
      exact @List.perm_append_comm _ [c] _
    · rw [hactive, List.append_assoc]
      exact (List.sublist_append_left _ _).subperm
  · have hnone : acceptedConnections [⟨s, l, t⟩] = [] ∧ removedConnections [⟨s, l, t⟩] = [] := by
      cases l with
      | accept c socketFd => exact (haccept c socketFd rfl).elim
      | disconnect c => exact (hdisconnect c rfl).elim
      | _ => exact ⟨rfl, rfl⟩
    rw [hnone.1, hnone.2, hpending, hactive]
    simp [List.Subperm.refl]

/-- The same over runs. -/
theorem connections_moved (run : Run (threadSystem users) s moves t) :
    (acceptedConnections moves ++ (s.pendingConnections ++ s.activeConnections)).Perm
        (t.pendingConnections ++ t.activeConnections ++ removedConnections moves) ∧
      s.activeConnections.Subperm (t.activeConnections ++ removedConnections moves) := by
  induction run with
  | nil s => simp [acceptedConnections, removedConnections, List.Subperm.refl]
  | @cons s t u l later step _ ih =>
      obtain ⟨here, stays⟩ := step.2.moved
      obtain ⟨next, remain⟩ := ih
      have haccepted := acceptedConnections_append [⟨s, l, t⟩] later
      have hremoved := removedConnections_append [⟨s, l, t⟩] later
      simp only [List.singleton_append] at haccepted hremoved
      rw [haccepted, hremoved]
      constructor
      · rw [List.perm_iff_count] at here next ⊢
        intro c
        have := here c
        have := next c
        simp only [List.count_append] at *
        omega
      · rw [List.subperm_ext_iff]
        intro c _
        have := stays.count_le c
        have := remain.count_le c
        simp only [List.count_append] at *
        omega

/-- Connections are conserved and isolated. Each accepted connection is in one of
`pending_connections`, `active_connections` and the erased ones, and moves forward through
these. A pass calls `recv` once on each active connection; it erases those that are lost and
keeps the others in their order, each with what its own buffer and `recv` come to. -/
theorem connections_conserved (users : DatabaseHandler) :
    (∀ s moves, Run (threadSystem users) .initial moves s →
      (acceptedConnections moves).Perm
          (s.pendingConnections ++ s.activeConnections ++ removedConnections moves) ∧
        (s.pendingConnections ++ s.activeConnections).Nodup ∧
        ∀ t later, Run (threadSystem users) s later t →
          removedConnections moves <+: removedConnections (moves ++ later) ∧
          (s.activeConnections ++ removedConnections moves).Subperm
            (t.activeConnections ++ removedConnections (moves ++ later))) ∧
      (∀ outcome active completedPackets,
        let pass := receiveAllConnections outcome ⟨active, 0, completedPackets, []⟩
        pass.recvs = active.map (·.id) ∧
          pass.active.map (·.id) =
            (active.map (·.id)).filter (fun c => !(outcome c).lost) ∧
          pass.active = active.filterMap (fun a => a.kept (outcome a.id)) ∧
          pass.completedPackets =
            (active.flatMap fun a => a.packets (outcome a.id)).reverse ++ completedPackets) ∧
      ∀ (connection : ConnectionWrapper) (session : Session) (outcome : RecvOutcome),
        (connection.withSession session).poll outcome =
          ((connection.poll outcome).1, (connection.poll outcome).2.withSession session) := by
  refine ⟨?_, ?_, poll_withSession⟩
  · intro s moves run
    have placed : s.Placed := by
      have start : ServerState.initial.Placed := ⟨List.nodup_nil, nofun⟩
      refine (run.invariant (I := ServerState.Placed) ?_ start).1
      rintro s l t now ⟨-, step⟩
      exact step.placed now
    refine ⟨?_, placed.nodup, ?_⟩
    · have moved := (connections_moved run).1
      have hnone : ServerState.initial.pendingConnections ++
        ServerState.initial.activeConnections = [] := rfl
      rwa [hnone, List.append_nil] at moved
    · intro t later next
      rw [removedConnections_append]
      refine ⟨List.prefix_append _ _, ?_⟩
      rw [List.subperm_ext_iff]
      intro c _
      have := (connections_moved next).2.count_le c
      simp only [List.count_append] at *
      omega
  · intro outcome active completedPackets
    have pass := receiveAllConnections_eq outcome [] active completedPackets []
    simp only [List.nil_append, List.length_nil] at pass
    rw [pass]
    exact ⟨rfl, id_keptConnections outcome active, rfl, rfl⟩

/-- A connection is accepted; of two that are polled, the first is closed. -/
theorem connections_conserved_two (users : DatabaseHandler) :
    (∃ moves s, Run (threadSystem users) .initial moves s ∧
      [0].Perm (s.pendingConnections ++ s.activeConnections ++ removedConnections moves)) ∧
      (receiveAllConnections (fun c => if c = 0 then .endOfStream else .wouldBlock)
        ⟨[⟨0, .accepted 5⟩, ⟨1, .accepted 6⟩], 0, [], []⟩).active.map (·.id) = [1] := by
  obtain ⟨runs, passes, -⟩ := connections_conserved users
  have run : Run (threadSystem users) .initial _ _ :=
    .one ⟨rfl, @ThreadStep.accept users _ 0 5 rfl rfl⟩
  exact ⟨⟨_, _, run, (runs _ _ run).1⟩, (passes _ _ _).2.1⟩

end Threads

end ConcurrentTcp
