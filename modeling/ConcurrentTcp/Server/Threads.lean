import ConcurrentTcp.Base.Service
import ConcurrentTcp.Server.Receive
import ConcurrentTcp.Server.Sessions

/-!
The threads of the server (`server/main.cpp`, `server/thread_pool.hpp`).

The accept thread, the server thread and the pool's workers take steps in any
order. The server thread is at one of the places `ServerPc` names; a worker is
idle, holds a packet, or is serving it. Reading the packet type and running the
handler are separate steps, since the server thread may receive in between. A
handler is one step: what handlers do to each other is the subject of the races
over single variables.

`threadSystem_refines_sessions` shows that these threads do to sessions what
`sessionSystem` does, and `frame_of_task` that a task's number is the place of its
packet in the stream of its connection.
-/

namespace ConcurrentTcp

open Interaction Transition Service

/-! ### State -/

/-- An extracted packet. `seq` counts the packets of its connection; the program
does not have it. -/
structure Task where
  packet : ConnectionBuffer
  seq : Nat

def Task.key (t : Task) : ConnId × Nat := (t.packet.connection, t.seq)

/-- A thread of the pool: before `task()`, and inside it once the packet type has
been read. -/
inductive Worker where
  | idle
  | taken (task : Task)
  | inProgress (task : Task) (packetType : PacketType)

/-- The task a worker holds. -/
def Worker.task? : Worker → Option Task
  | .idle => none
  | .taken task => some task
  | .inProgress task _ => some task

def Worker.taken? : Worker → Option Task
  | .taken task => some task
  | _ => none

def Worker.inProgress? : Worker → Option Task
  | .inProgress task _ => some task
  | _ => none

/-- Where the server thread is. `it` is the index of the iterator. -/
inductive ServerPc where
  | receive (it : Nat)
  | extract (it : Nat) (packetSize : Nat)
  | handlePackets
  | handlePending

/-- The extraction loop goes on with a `packet_size`, or the iterator moves on. -/
def ServerPc.resume (it : Nat) : Option Nat → ServerPc
  | none => .receive (it + 1)
  | some packetSize => .extract it packetSize

/-- The lists have the top of a stack and the front of a queue first. `received`,
`pushed` and `started` are history. -/
structure ServerState where
  connections : ConnId → Option ConnectionWrapper
  pendingConnections : List ConnId
  activeConnections : List ConnId
  completedPackets : List Task
  tasks : List Task
  workers : List Worker
  pc : ServerPc
  g : GlobalState
  terminated : Bool
  received : ConnId → List UInt8
  pushed : ConnId → List (List UInt8)
  started : List Task

/-- `thread_pool.start(6)`, then `server_thread`. -/
def ServerState.initial : ServerState where
  connections := fun _ => none
  pendingConnections := []
  activeConnections := []
  completedPackets := []
  tasks := []
  workers := List.replicate 6 .idle
  pc := .receive 0
  g := .initial
  terminated := false
  received := fun _ => []
  pushed := fun _ => []
  started := []

inductive ThreadLabel where
  | accept (c : ConnId) (socketFd : Int)
  | server
  | recv (c : ConnId) (bytes : List UInt8)
  | disconnect (c : ConnId)
  | push (task : Task)
  | take (task : Task)
  | start (task : Task) (receiveBuffer : Buffer)
  | finish (task : Task) (packetType : PacketType) (receiveBuffer : Buffer)
      (before : HandlerState) (events : List ServerEvent) (out : Except Fault HandlerState)

namespace ServerState

/-! ### Steps -/

/-- A new connection waits in `pending_connections`. -/
def accept (s : ServerState) (c : ConnId) (socketFd : Int) : ServerState :=
  { s with
    connections := Function.update s.connections c (some (.accepted socketFd))
    pendingConnections := c :: s.pendingConnections }

/-- A connection is erased and destroyed. The iterator then is at the next one. -/
def disconnect (s : ServerState) (it : Nat) (c : ConnId) (g : GlobalState) : ServerState :=
  { s with
    connections := Function.update s.connections c none
    activeConnections := s.activeConnections.eraseIdx it
    g := g }

/-- `recv` returned `bytes`. -/
def recv (s : ServerState) (it : Nat) (c : ConnId) (connection : ConnectionWrapper)
    (bytes : List UInt8) : ServerState :=
  let connection := connection.recv bytes
  { s with
    connections := Function.update s.connections c (some connection)
    pc := .resume it
      (if connection.bufferPos < 4 then none else some connection.buffer.totalSize)
    received := Function.update s.received c (s.received c ++ bytes) }

/-- The next packet of a connection. -/
def nextTask (s : ServerState) (c : ConnId) (connection : ConnectionWrapper) (packetSize : Nat) :
    Task where
  packet := { connection := c, frame := connection.buffer.read 0 packetSize }
  seq := (s.pushed c).length

/-- A packet is copied, pushed, and shifted out of the receive buffer. -/
def push (s : ServerState) (it : Nat) (c : ConnId) (connection : ConnectionWrapper)
    (packetSize : Nat) : ServerState :=
  let task := s.nextTask c connection packetSize
  { s with
    connections := Function.update s.connections c (some (connection.shift packetSize).1)
    completedPackets := task :: s.completedPackets
    pc := .resume it (connection.shift packetSize).2
    pushed := Function.update s.pushed c (s.pushed c ++ [task.packet.frame]) }

/-- A handler has returned, or an exception ends the process. -/
def finish (s : ServerState) (c : ConnId) (connection : ConnectionWrapper)
    (before after : List Worker) (out : Except Fault HandlerState) : ServerState :=
  match out with
  | .ok t =>
      { s with
        connections := Function.update s.connections c
          (some { connection with toSession := t.session })
        workers := before ++ .idle :: after
        g := t.g }
  | .error _ => { s with workers := before ++ .idle :: after, terminated := true }

end ServerState

/-- One step of one thread. The lists `front` and `back` are the workers before and
after the one that takes the step. -/
inductive ThreadStep (users : DatabaseHandler) :
    ServerState → ThreadLabel → ServerState → Prop where
  /-- `accept_thread_handler`: a new object. -/
  | accept {s : ServerState} {c : ConnId} {socketFd : Int} :
      s.connections c = none → s.received c = [] →
      ThreadStep users s (.accept c socketFd) (s.accept c socketFd)
  /-- `recv` has nothing. -/
  | wouldBlock {s : ServerState} {it : Nat} :
      s.pc = .receive it → it < s.activeConnections.length →
      ThreadStep users s .server { s with pc := .receive (it + 1) }
  /-- `recv` fails or the connection is closed. -/
  | disconnect {s : ServerState} {it : Nat} {c : ConnId} {connection : ConnectionWrapper}
      {g : GlobalState} (events : List ServerEvent) :
      s.pc = .receive it → s.activeConnections[it]? = some c → s.connections c = some connection →
      Exec (destroyConnection connection.toSession s.g) events (.ok g) →
      ThreadStep users s (.disconnect c) (s.disconnect it c g)
  | recv {s : ServerState} {it : Nat} {c : ConnId} {connection : ConnectionWrapper}
      {bytes : List UInt8} :
      s.pc = .receive it → s.activeConnections[it]? = some c → s.connections c = some connection →
      bytes ≠ [] → bytes.length ≤ uint16Max - connection.bufferPos →
      ThreadStep users s (.recv c bytes) (s.recv it c connection bytes)
  | receiveEnd {s : ServerState} {it : Nat} :
      s.pc = .receive it → s.activeConnections.length ≤ it →
      ThreadStep users s .server { s with pc := .handlePackets }
  | push {s : ServerState} {it packetSize : Nat} {c : ConnId} {connection : ConnectionWrapper} :
      s.pc = .extract it packetSize → s.activeConnections[it]? = some c →
      s.connections c = some connection → packetSize ≤ connection.bufferPos → packetSize ≠ 0 →
      ThreadStep users s (.push (s.nextTask c connection packetSize))
        (s.push it c connection packetSize)
  | extractEnd {s : ServerState} {it packetSize : Nat} {c : ConnId}
      {connection : ConnectionWrapper} :
      s.pc = .extract it packetSize → s.activeConnections[it]? = some c →
      s.connections c = some connection → ¬ (packetSize ≤ connection.bufferPos ∧ packetSize ≠ 0) →
      ThreadStep users s .server { s with pc := .receive (it + 1) }
  /-- `handle_packets` moves the top of the stack to the end of the queue. -/
  | dispatchAsync {s : ServerState} {task : Task} {rest : List Task} :
      s.pc = .handlePackets → s.completedPackets = task :: rest →
      ThreadStep users s .server { s with completedPackets := rest, tasks := s.tasks ++ [task] }
  | handlePacketsEnd {s : ServerState} :
      s.pc = .handlePackets → s.completedPackets = [] →
      ThreadStep users s .server { s with pc := .handlePending }
  | activate {s : ServerState} {c : ConnId} {rest : List ConnId} :
      s.pc = .handlePending → s.pendingConnections = c :: rest →
      ThreadStep users s .server
        { s with pendingConnections := rest, activeConnections := s.activeConnections ++ [c] }
  | handlePendingEnd {s : ServerState} :
      s.pc = .handlePending → s.pendingConnections = [] →
      ThreadStep users s .server { s with pc := .receive 0 }
  | take {s : ServerState} {task : Task} {rest : List Task} {front back : List Worker} :
      s.tasks = task :: rest → s.workers = front ++ .idle :: back →
      ThreadStep users s (.take task)
        { s with tasks := rest, workers := front ++ .taken task :: back }
  /-- `process_packet` reads the receive buffer of the connection; once that is
  destroyed, the memory holds anything. -/
  | start {s : ServerState} {task : Task} {receiveBuffer : Buffer} {front back : List Worker} :
      s.workers = front ++ .taken task :: back →
      (∀ connection, s.connections task.packet.connection = some connection →
        receiveBuffer = connection.buffer) →
      ThreadStep users s (.start task receiveBuffer)
        { s with
          workers := front ++ .inProgress task (getPacketType receiveBuffer) :: back
          started := s.started ++ [task] }
  | finish {s : ServerState} {task : Task} {packetType : PacketType}
      {connection : ConnectionWrapper} {front back : List Worker} (fuel : Nat) (tls : Buffer)
      (events : List ServerEvent) (out : Except Fault HandlerState) :
      s.workers = front ++ .inProgress task packetType :: back →
      s.connections task.packet.connection = some connection →
      Exec (dispatch users fuel packetType connection.buffer task.packet
        ⟨connection.toSession, s.g, tls⟩) events out →
      out ≠ .error .outOfFuel →
      ThreadStep users s
        (.finish task packetType connection.buffer ⟨connection.toSession, s.g, tls⟩ events out)
        (s.finish task.packet.connection connection front back out)

/-- A process that has ended takes no steps. -/
def threadSystem (users : DatabaseHandler) : System ServerState ThreadLabel where
  init := fun s => s = .initial
  step := fun s l t => s.terminated = false ∧ ThreadStep users s l t

/-! ### Sessions -/

/-- The sessions of the live connections. -/
def ServerState.sessions (s : ServerState) : SessionState :=
  { live := fun c => (s.connections c).map (·.toSession), g := s.g }

section Sessions

variable {users : DatabaseHandler} {s t : ServerState} {l : ThreadLabel}

/-- What the session view of a changed connection is. -/
theorem sessions_update (s : ServerState) (c : ConnId) (new : Option ConnectionWrapper)
    (g : GlobalState) :
    (SessionState.mk (fun d => (Function.update s.connections c new d).map (·.toSession)) g) =
      s.sessions.set c (new.map (·.toSession)) g := by
  unfold SessionState.set
  congr 1
  funext d
  by_cases hd : d = c
  · subst hd
    rw [Function.update_self, Function.update_self]
  · rw [Function.update_of_ne hd, Function.update_of_ne hd]
    rfl

/-- Work on the receive buffer is not seen in the sessions. -/
theorem sessions_update_same {c : ConnId} {connection new : ConnectionWrapper}
    (hlive : s.connections c = some connection) (hnew : new.toSession = connection.toSession) :
    (SessionState.mk (fun d => (Function.update s.connections c (some new) d).map (·.toSession))
      s.g) = s.sessions := by
  have hsame : (some new).map (·.toSession) = s.sessions.live c := by
    show some new.toSession = (s.connections c).map (·.toSession)
    rw [hlive, hnew]
    rfl
  rw [sessions_update, hsame]
  unfold SessionState.set
  rw [Function.update_eq_self]
  rfl

theorem ConnectionWrapper.shift_toSession (connection : ConnectionWrapper) (packetSize : Nat) :
    (connection.shift packetSize).1.toSession = connection.toSession := by
  unfold shift
  dsimp only
  split
  · rfl
  · split <;> rfl

theorem live_sessions {c : ConnId} {connection : ConnectionWrapper}
    (hlive : s.connections c = some connection) :
    s.sessions.live c = some connection.toSession :=
  congrArg (Option.map _) hlive

/-- A step of a thread is a step of the sessions, or does not concern them. -/
theorem ThreadStep.sessions (step : ThreadStep users s l t) :
    t.sessions = s.sessions ∨ ∃ l', SessionStep users s.sessions l' t.sessions := by
  cases step with
  | accept hfree hnew =>
      right
      rename_i c socketFd
      have hnone : s.sessions.live c = none := congrArg (Option.map _) hfree
      have heq := sessions_update s c (some (.accepted socketFd)) s.g
      exact ⟨_, heq ▸ SessionStep.accept hnone⟩
  | disconnect events hpc hit hlive run =>
      right
      rename_i it c connection g
      have heq := sessions_update s c none g
      exact ⟨_, heq ▸ SessionStep.disconnect events (live_sessions hlive) run⟩
  | recv hpc hit hlive hne hfits => exact .inl (sessions_update_same hlive rfl)
  | push hpc hit hlive hfits hne =>
      exact .inl (sessions_update_same hlive (ConnectionWrapper.shift_toSession _ _))
  | finish fuel tls events out hworkers hlive run hfuel =>
      cases out with
      | ok u =>
          right
          rename_i task packetType connection front back
          have heq := sessions_update s task.packet.connection
            (some { connection with toSession := u.session }) u.g
          exact ⟨_, heq ▸ SessionStep.packet fuel tls events u (live_sessions hlive) run⟩
      | error e => exact .inl rfl
  | wouldBlock => exact .inl rfl
  | receiveEnd => exact .inl rfl
  | extractEnd => exact .inl rfl
  | dispatchAsync => exact .inl rfl
  | handlePacketsEnd => exact .inl rfl
  | activate => exact .inl rfl
  | handlePendingEnd => exact .inl rfl
  | take => exact .inl rfl
  | start => exact .inl rfl

/-- Whatever the threads reach, the sessions reach. -/
theorem threadSystem_refines_sessions (h : Reachable (threadSystem users) s) :
    Reachable (sessionSystem users) s.sessions := by
  refine Reachable.invariant (I := fun s => Reachable (sessionSystem users) s.sessions) ?_ ?_ h
  · rintro start rfl
    exact .initial rfl
  · rintro s l t now ⟨-, step⟩
    rcases step.sessions with same | ⟨l', next⟩
    · rw [same]
      exact now
    · exact now.step next

end Sessions

/-! ### Streams -/

/-- The size the server thread works with while it extracts from `c`. -/
def ServerState.extracting (s : ServerState) (c : ConnId) : Option Nat :=
  match s.pc with
  | .extract it packetSize => if s.activeConnections[it]? = some c then some packetSize else none
  | _ => none

/-- What was pushed and what is in the buffer make up what was received. Outside of
the extraction, no complete packet is left in the buffer. -/
def StreamOk (received : List UInt8) (pushed : List (List UInt8)) (extracting : Option Nat) :
    Option ConnectionWrapper → Prop
  | none => extracting = none ∧ (packetFraming.parse received).1 = pushed
  | some connection =>
      packetFraming.parse received =
        (pushed ++ (packetFraming.parse connection.residue).1,
          (packetFraming.parse connection.residue).2) ∧
      match extracting with
      | none => packetFraming.size connection.residue = none
      | some packetSize =>
          4 ≤ connection.bufferPos ∧ packetSize = connection.buffer.totalSize

section StreamOk

variable {received : List UInt8} {pushed : List (List UInt8)} {connection : ConnectionWrapper}
  {packetSize : Nat}

theorem streamOk_accepted {pushed : List (List UInt8)} {extracting : Option Nat} (socketFd : Int)
    (h : StreamOk [] pushed extracting none) :
    StreamOk [] pushed extracting (some (.accepted socketFd)) := by
  obtain ⟨rfl, rfl⟩ := h
  have hnil : packetFraming.parse [] = ([], []) := packetFraming.parse_of_none rfl
  refine ⟨?_, rfl⟩
  rw [ConnectionWrapper.residue_accepted, hnil]
  rfl

theorem StreamOk.disconnect (h : StreamOk received pushed none (some connection)) :
    StreamOk received pushed none none := by
  obtain ⟨hparse, hrest⟩ := h
  refine ⟨rfl, ?_⟩
  rw [hparse, packetFraming.parse_of_none hrest, List.append_nil]

theorem StreamOk.recv {bytes : List UInt8}
    (h : StreamOk received pushed none (some connection)) (hne : bytes ≠ [])
    (hfits : bytes.length ≤ uint16Max - connection.bufferPos) :
    StreamOk (received ++ bytes) pushed
      (if (connection.recv bytes).bufferPos < 4 then none
        else some (connection.recv bytes).buffer.totalSize)
      (some (connection.recv bytes)) := by
  obtain ⟨hparse, hrest⟩ := h
  rw [packetFraming.parse_of_none hrest, List.append_nil] at hparse
  constructor
  · rw [packetFraming.parse_append, hparse, ConnectionWrapper.residue_recv hne hfits]
  · by_cases hshort : (connection.recv bytes).bufferPos < 4
    · rw [if_pos hshort]
      exact size_residue_of_short hshort
    · rw [if_neg hshort]
      exact ⟨by omega, rfl⟩

theorem StreamOk.push (h : StreamOk received pushed (some packetSize) (some connection))
    (hfits : packetSize ≤ connection.bufferPos) (hne : packetSize ≠ 0) :
    StreamOk received (pushed ++ [connection.buffer.read 0 packetSize])
      (connection.shift packetSize).2 (some (connection.shift packetSize).1) := by
  obtain ⟨hparse, hheader, rfl⟩ := h
  have hcut : packetFraming.size connection.residue = some connection.buffer.totalSize := by
    rw [size_residue_of_header hheader, if_pos ⟨hfits, hne⟩]
  constructor
  · rw [hparse, packetFraming.parse_of_some hcut, ← read_eq_take_residue hfits,
      ← ConnectionWrapper.residue_shift hfits, List.append_assoc]
    rfl
  · rw [ConnectionWrapper.shift_next]
    by_cases hshort : (connection.shift connection.buffer.totalSize).1.bufferPos < 4
    · rw [if_pos hshort]
      exact size_residue_of_short hshort
    · rw [if_neg hshort]
      exact ⟨by omega, rfl⟩

theorem StreamOk.extractEnd (h : StreamOk received pushed (some packetSize) (some connection))
    (hend : ¬ (packetSize ≤ connection.bufferPos ∧ packetSize ≠ 0)) :
    StreamOk received pushed none (some connection) := by
  obtain ⟨hparse, hheader, rfl⟩ := h
  refine ⟨hparse, ?_⟩
  show packetFraming.size connection.residue = none
  rw [size_residue_of_header hheader, if_neg hend]

end StreamOk

/-- Every connection's stream is accounted for. -/
def ServerState.StreamsOk (s : ServerState) : Prop :=
  ∀ c, StreamOk (s.received c) (s.pushed c) (s.extracting c) (s.connections c)

section Streams

variable {users : DatabaseHandler} {s t : ServerState} {l : ThreadLabel}

theorem extracting_of_receive {it : Nat} (hpc : s.pc = .receive it) (c : ConnId) :
    s.extracting c = none := by
  unfold ServerState.extracting
  rw [hpc]

theorem extracting_self {it packetSize : Nat} {c : ConnId} (hpc : s.pc = .extract it packetSize)
    (hit : s.activeConnections[it]? = some c) : s.extracting c = some packetSize := by
  unfold ServerState.extracting
  rw [hpc]
  exact if_pos hit

theorem extracting_of_ne {it packetSize : Nat} {c d : ConnId}
    (hpc : s.pc = .extract it packetSize) (hit : s.activeConnections[it]? = some c) (hd : d ≠ c) :
    s.extracting d = none := by
  unfold ServerState.extracting
  rw [hpc]
  refine if_neg fun hdit => hd ?_
  rw [hit] at hdit
  exact (Option.some.inj hdit).symm

theorem extracting_of_resume {it : Nat} {next : Option Nat} {c : ConnId}
    (hpc : s.pc = .resume it next) (hit : s.activeConnections[it]? = some c) (d : ConnId) :
    s.extracting d = if d = c then next else none := by
  cases next with
  | none =>
      rw [extracting_of_receive hpc]
      exact (ite_self none).symm
  | some packetSize =>
      split
      · rename_i hd
        subst hd
        exact extracting_self hpc hit
      · rename_i hd
        exact extracting_of_ne hpc hit hd

/-- A step that moves the server thread only, outside of an extraction. -/
theorem ServerState.StreamsOk.of_quiet (h : s.StreamsOk)
    (hconnections : t.connections = s.connections)
    (hreceived : t.received = s.received) (hpushed : t.pushed = s.pushed)
    (hextracting : ∀ c, t.extracting c = s.extracting c) : t.StreamsOk := by
  intro c
  rw [hconnections, hreceived, hpushed, hextracting]
  exact h c

/-- A step that concerns one connection. -/
theorem ServerState.StreamsOk.of_update {c : ConnId} {new : Option ConnectionWrapper}
    (h : s.StreamsOk) (hconnections : t.connections = Function.update s.connections c new)
    (hreceived : ∀ d ≠ c, t.received d = s.received d)
    (hpushed : ∀ d ≠ c, t.pushed d = s.pushed d)
    (hextracting : ∀ d ≠ c, t.extracting d = s.extracting d)
    (here : StreamOk (t.received c) (t.pushed c) (t.extracting c) new) : t.StreamsOk := by
  intro d
  rw [hconnections]
  by_cases hd : d = c
  · subst hd
    rwa [Function.update_self]
  · rw [Function.update_of_ne hd, hreceived d hd, hpushed d hd, hextracting d hd]
    exact h d

theorem ThreadStep.streamsOk (step : ThreadStep users s l t) (h : s.StreamsOk) : t.StreamsOk := by
  cases step with
  | accept hfree hnew =>
      rename_i c socketFd
      refine h.of_update rfl (fun _ _ => rfl) (fun _ _ => rfl) (fun _ _ => rfl) ?_
      have here := h c
      rw [hfree, hnew] at here
      show StreamOk (s.received c) _ _ _
      rw [hnew]
      exact streamOk_accepted socketFd here
  | wouldBlock hpc hit =>
      exact h.of_quiet rfl rfl rfl fun c => (extracting_of_receive hpc c).symm
  | disconnect events hpc hit hlive run =>
      rename_i it c connection g
      have hquiet : ∀ d, (s.disconnect it c g).extracting d = s.extracting d := by
        intro d
        rw [extracting_of_receive hpc]
        exact extracting_of_receive (s := s.disconnect it c g) hpc d
      refine h.of_update rfl (fun _ _ => rfl) (fun _ _ => rfl) (fun d _ => hquiet d) ?_
      have here := h c
      rw [hlive, extracting_of_receive hpc] at here
      rw [hquiet, extracting_of_receive hpc]
      exact here.disconnect
  | recv hpc hit hlive hne hfits =>
      rename_i it c connection bytes
      have here := h c
      rw [hlive, extracting_of_receive hpc] at here
      have hreceived : (s.recv it c connection bytes).received c = s.received c ++ bytes :=
        Function.update_self ..
      have hextracting := extracting_of_resume (s := s.recv it c connection bytes) rfl hit
      refine h.of_update rfl (fun d hd => Function.update_of_ne hd ..) (fun _ _ => rfl)
        (fun d hd => ?_) ?_
      · rw [hextracting, if_neg hd, extracting_of_receive hpc]
      · rw [hreceived, hextracting, if_pos rfl]
        exact here.recv hne hfits
  | receiveEnd hpc hend =>
      exact h.of_quiet rfl rfl rfl fun c => (extracting_of_receive hpc c).symm
  | push hpc hit hlive hfits hne =>
      rename_i it packetSize c connection
      have here := h c
      rw [hlive, extracting_self hpc hit] at here
      have hpushed : (s.push it c connection packetSize).pushed c =
          s.pushed c ++ [connection.buffer.read 0 packetSize] := Function.update_self ..
      have hextracting :=
        extracting_of_resume (s := s.push it c connection packetSize) rfl hit
      refine h.of_update rfl (fun _ _ => rfl) (fun d hd => Function.update_of_ne hd ..)
        (fun d hd => ?_) ?_
      · rw [hextracting, if_neg hd, extracting_of_ne hpc hit hd]
      · rw [hpushed, hextracting, if_pos rfl]
        exact here.push hfits hne
  | extractEnd hpc hit hlive hend =>
      rename_i it packetSize c connection
      intro d
      show StreamOk (s.received d) (s.pushed d) none (s.connections d)
      have here := h d
      by_cases hd : d = c
      · subst hd
        rw [hlive, extracting_self hpc hit] at here
        rw [hlive]
        exact here.extractEnd hend
      · rwa [extracting_of_ne hpc hit hd] at here
  | dispatchAsync => exact h.of_quiet rfl rfl rfl fun _ => rfl
  | handlePacketsEnd hpc hempty =>
      refine h.of_quiet rfl rfl rfl fun c => ?_
      unfold ServerState.extracting
      rw [hpc]
  | activate hpc hpending =>
      refine h.of_quiet rfl rfl rfl fun c => ?_
      unfold ServerState.extracting
      rw [hpc]
  | handlePendingEnd hpc hpending =>
      refine h.of_quiet rfl rfl rfl fun c => ?_
      unfold ServerState.extracting
      rw [hpc]
  | take => exact h.of_quiet rfl rfl rfl fun _ => rfl
  | start => exact h.of_quiet rfl rfl rfl fun _ => rfl
  | finish fuel tls events out hworkers hlive run hfuel =>
      rename_i task packetType connection front back
      cases out with
      | error e => exact h.of_quiet rfl rfl rfl fun _ => rfl
      | ok u =>
          refine h.of_update rfl (fun _ _ => rfl) (fun _ _ => rfl) (fun _ _ => rfl) ?_
          have here := h task.packet.connection
          rw [hlive] at here
          exact here

theorem streamsOk_of_reachable (h : Reachable (threadSystem users) s) : s.StreamsOk := by
  refine Reachable.invariant (I := ServerState.StreamsOk) ?_ ?_ h
  · rintro start rfl c
    exact ⟨rfl, congrArg Prod.fst (packetFraming.parse_of_none rfl)⟩
  · rintro s l t now ⟨-, step⟩
    exact step.streamsOk now

/-- The tasks in the stack, in the queue and with workers. -/
def ServerState.inFlight (s : ServerState) : List Task :=
  s.completedPackets ++ s.tasks ++ s.workers.filterMap Worker.task?

/-- A task that is in flight after a step was so before, or was pushed. -/
theorem ThreadStep.inFlight (step : ThreadStep users s l t) :
    ∀ task ∈ t.inFlight, task ∈ s.inFlight ∨ l = .push task := by
  intro task hmem
  cases step with
  | push =>
      rcases List.mem_cons.mp hmem with rfl | hold
      · exact .inr rfl
      · exact .inl hold
  | dispatchAsync hpc hcompleted =>
      left
      simp only [ServerState.inFlight, hcompleted, List.mem_append, List.mem_cons] at hmem ⊢
      tauto
  | take htasks hworkers =>
      left
      simp only [ServerState.inFlight, htasks, hworkers, List.filterMap_append, List.mem_append,
        List.mem_cons, List.filterMap_cons, Worker.task?] at hmem ⊢
      tauto
  | start hworkers hbuffer =>
      left
      simp only [ServerState.inFlight, hworkers, List.filterMap_append, List.mem_append,
        List.mem_cons, List.filterMap_cons, Worker.task?] at hmem ⊢
      tauto
  | finish fuel tls events out hworkers hlive run hfuel =>
      left
      cases out <;>
      · simp only [ServerState.finish, ServerState.inFlight, hworkers, List.filterMap_append,
          List.mem_append, List.mem_cons, List.filterMap_cons, Worker.task?] at hmem ⊢
        tauto
  | _ => exact .inl hmem

/-- Packets are pushed at the end, with the next number. -/
theorem ThreadStep.pushed (step : ThreadStep users s l t) :
    (∀ c, s.pushed c <+: t.pushed c) ∧
      ∀ task, l = .push task →
        (t.pushed task.packet.connection)[task.seq]? = some task.packet.frame := by
  cases step with
  | push =>
      rename_i it packetSize c connection hpc hit hlive hfits hne
      constructor
      · intro d
        show s.pushed d <+: Function.update s.pushed c _ d
        by_cases hd : d = c
        · subst hd
          rw [Function.update_self]
          exact List.prefix_append _ _
        · rw [Function.update_of_ne hd]
      · rintro task ⟨⟩
        have hpushed : (s.push it c connection packetSize).pushed c =
            s.pushed c ++ [connection.buffer.read 0 packetSize] := Function.update_self ..
        show ((s.push it c connection packetSize).pushed c)[(s.pushed c).length]? = _
        rw [hpushed, List.getElem?_concat_length]
        rfl
  | finish fuel tls events out =>
      refine ⟨fun c => ?_, by rintro task ⟨⟩⟩
      cases out with
      | ok u => exact List.prefix_rfl
      | error e => exact List.prefix_rfl
  | _ => exact ⟨fun c => List.prefix_rfl, by rintro task ⟨⟩⟩

/-- In every reachable state, a packet in flight with number `n` is the `n`-th packet
of the stream that was received from its connection. -/
theorem frame_of_task (h : Reachable (threadSystem users) s) {task : Task}
    (hmem : task ∈ s.inFlight) :
    (packetFraming.parse (s.received task.packet.connection)).1[task.seq]? =
      some task.packet.frame := by
  have numbered : ∀ task ∈ s.inFlight,
      (s.pushed task.packet.connection)[task.seq]? = some task.packet.frame := by
    refine Reachable.invariant (I := fun s => ∀ task ∈ s.inFlight,
      (s.pushed task.packet.connection)[task.seq]? = some task.packet.frame) ?_ ?_ h
    · rintro start rfl task hmem
      cases hmem
    · rintro s l t now ⟨-, step⟩ task hmem
      obtain ⟨hgrown, hnew⟩ := step.pushed
      rcases step.inFlight task hmem with hold | hpush
      · obtain ⟨more, hmore⟩ := hgrown task.packet.connection
        have hframe := now task hold
        rw [← hmore, List.getElem?_append_left (List.getElem?_eq_some_iff.mp hframe).1]
        exact hframe
      · exact hnew task hpush
  have hframe := numbered task hmem
  have hstream := streamsOk_of_reachable h task.packet.connection
  cases hlive : s.connections task.packet.connection with
  | none =>
      rw [hlive] at hstream
      rw [hstream.2]
      exact hframe
  | some connection =>
      rw [hlive] at hstream
      rw [hstream.1, List.getElem?_append_left (List.getElem?_eq_some_iff.mp hframe).1]
      exact hframe

end Streams

/-! ### Two runs -/

/-- A logout and a ping. -/
def logoutPing : List UInt8 := [1, 14, 4, 0, 1, 13, 4, 0]

def logoutTask : Task := { packet := { connection := 0, frame := [1, 14, 4, 0] }, seq := 0 }

def secondPingTask : Task := { packet := { connection := 0, frame := [1, 13, 4, 0] }, seq := 1 }

/-- Both packets arrive in one `recv`. The stack turns them round, and the receive
buffer is left with the second. -/
theorem exists_two_frames (users : DatabaseHandler) :
    ∃ s, Reachable (threadSystem users) s ∧ s.terminated = false ∧ s.received 0 = logoutPing ∧
      s.tasks = [secondPingTask, logoutTask] ∧ s.workers = List.replicate 6 .idle ∧
      s.started = [] ∧
      ∃ connection, s.connections 0 = some connection ∧ connection.buffer.command = 13 := by
  have step : ∀ {s t l}, Reachable (threadSystem users) s → s.terminated = false →
      ThreadStep users s l t → Reachable (threadSystem users) t :=
    fun h running next => h.step ⟨running, next⟩
  have accepted := step (.initial rfl) rfl (@ThreadStep.accept users _ 0 5 rfl rfl)
  have received := step accepted rfl (.receiveEnd rfl (Nat.zero_le _))
  have handled := step received rfl (.handlePacketsEnd rfl rfl)
  have active := step handled rfl (.activate rfl rfl)
  have ready := step active rfl (.handlePendingEnd rfl rfl)
  have both := step ready rfl
    (@ThreadStep.recv users _ 0 0 _ logoutPing rfl rfl rfl (by decide) (by decide))
  have first := step both rfl (.push rfl rfl rfl (by decide) (by decide))
  have second := step first rfl (.push rfl rfl rfl (by decide) (by decide))
  have extracted := step second rfl (.receiveEnd rfl (by decide))
  have queued := step extracted rfl (.dispatchAsync rfl rfl)
  have all := step queued rfl (.dispatchAsync rfl rfl)
  exact ⟨_, all, rfl, rfl, rfl, rfl, rfl, _, rfl, rfl⟩

def pingTask : Task := { packet := { connection := 0, frame := [1, 13, 4, 0] }, seq := 0 }

/-- A single ping is received and served. -/
theorem exists_ping_run (users : DatabaseHandler) (ok : ServerState → ThreadLabel → Prop)
    (accept : ∀ s c socketFd, ok s (.accept c socketFd)) (server : ∀ s, ok s .server)
    (recv : ∀ s c bytes, ok s (.recv c bytes)) (push : ∀ s task, ok s (.push task))
    (take : ∀ s, s.inFlight = [pingTask] → ok s (.take pingTask))
    (start : ∀ s receiveBuffer, receiveBuffer.command = 13 → ok s (.start pingTask receiveBuffer))
    (finish : ∀ s receiveBuffer before events out,
      ok s (.finish pingTask .reqPing receiveBuffer before events out)) :
    ∃ s, ReachableBy (threadSystem users) ok s ∧ s.started = [pingTask] ∧
      s.workers = List.replicate 6 .idle := by
  have step : ∀ {s t l}, ReachableBy (threadSystem users) ok s → s.terminated = false →
      ThreadStep users s l t → ok s l → ReachableBy (threadSystem users) ok t :=
    fun h running next meets => h.step ⟨running, next⟩ meets
  have accepted := step (.initial rfl) rfl (@ThreadStep.accept users _ 0 5 rfl rfl) (accept ..)
  have received := step accepted rfl (.receiveEnd rfl (Nat.zero_le _)) (server _)
  have handled := step received rfl (.handlePacketsEnd rfl rfl) (server _)
  have active := step handled rfl (.activate rfl rfl) (server _)
  have ready := step active rfl (.handlePendingEnd rfl rfl) (server _)
  have ping := step ready rfl
    (@ThreadStep.recv users _ 0 0 _ pingTask.packet.frame rfl rfl rfl (by decide) (by decide))
    (recv ..)
  have first := step ping rfl (.push rfl rfl rfl (by decide) (by decide)) (push ..)
  have extracted := step first rfl (.receiveEnd rfl (by decide)) (server _)
  have queued := step extracted rfl (.dispatchAsync rfl rfl) (server _)
  have held := step queued rfl (@ThreadStep.take users _ pingTask _ [] _ rfl rfl) (take _ rfl)
  have started := step held rfl
    (@ThreadStep.start users _ _ _ [] _ rfl fun c hc => by cases hc; rfl) (start _ _ rfl)
  have served := step started rfl (@ThreadStep.finish users _ _ _ _ [] _ 0 Buffer.zero _ (.ok _)
    rfl rfl (exec_respond _ _ _) (by simp)) (finish ..)
  exact ⟨_, served, rfl, rfl⟩

end ConcurrentTcp
