import ConcurrentTcp.Protocol.ClientPackets
import ConcurrentTcp.Server.PacketIdentity
import ConcurrentTcp.Server.PacketOrder

/-!
Clients that wait for each answer, and the threads of the server.

Any number of clients send one request at a time and read one frame before the next, as the
shipped client does. Their bytes arrive cut into any pieces. A response is there when its
handler has returned, which is when it was sent: it is the last call of a handler.

The receive buffer, the stack, the queue and the workers stand between a request and its
handler. `lockstep_clients` says that none of them shows to such clients: their packets are
handled as themselves and in order, one at a time, and nobody who waits is disconnected.
-/

namespace ConcurrentTcp

open Interaction Transition

/-! ### State -/

/-- A request with the bytes that answered it. -/
structure Exchange where
  connection : ConnId
  request : List UInt8
  response : List UInt8
deriving DecidableEq, Repr

/-- The client of one connection: the request it waits for, what it has sent that the server
has not received, and what it has not read. `exchanges` is history. -/
structure Peer where
  outstanding : Option (List UInt8)
  closed : Bool
  sent : List UInt8
  unread : List UInt8
  exchanges : List Exchange

def Peer.initial : Peer :=
  { outstanding := none, closed := false, sent := [], unread := [], exchanges := [] }

/-- The server and its clients. `served` is history. -/
structure ClientsState where
  server : ServerState
  peers : ConnId → Peer
  served : List Exchange

def ClientsState.initial : ClientsState :=
  { server := .initial, peers := fun _ => .initial, served := [] }

inductive ClientsLabel where
  | request (c : ConnId) (frame : List UInt8)
  | response (c : ConnId) (frame : List UInt8)
  | close (c : ConnId)
  | server (l : ThreadLabel)

namespace ClientsState

def setPeer (w : ClientsState) (c : ConnId) (p : Peer) : ClientsState :=
  { w with peers := Function.update w.peers c p }

@[simp] theorem setPeer_self (w : ClientsState) (c : ConnId) (p : Peer) :
    (w.setPeer c p).peers c = p :=
  Function.update_self ..

/-- `send`, also before the server has accepted the connection. -/
def request (w : ClientsState) (c : ConnId) (frame : List UInt8) : ClientsState :=
  let p := w.peers c
  w.setPeer c { p with outstanding := some frame, sent := p.sent ++ frame }

/-- `recv_from_server` -/
def response (w : ClientsState) (c : ConnId) (asked frame rest : List UInt8) : ClientsState :=
  let p := w.peers c
  w.setPeer c
    { p with
      outstanding := none
      unread := rest
      exchanges := p.exchanges ++ [{ connection := c, request := asked, response := frame }] }

def close (w : ClientsState) (c : ConnId) : ClientsState :=
  w.setPeer c { w.peers c with closed := true }

/-- What a step of the server does to the clients. -/
def afterServer (w : ClientsState) (t : ServerState) : ThreadLabel → ClientsState
  | .recv c bytes =>
      let p := w.peers c
      { w.setPeer c { p with sent := p.sent.drop bytes.length } with server := t }
  | .finish task _ _ _ events _ =>
      let c := task.packet.connection
      let p := w.peers c
      let response := (sends events).flatten
      { server := t
        peers := Function.update w.peers c { p with unread := p.unread ++ response }
        served := w.served ++
          [{ connection := c, request := task.packet.frame, response := response }] }
  | _ => { w with server := t }

end ClientsState

/-- The network carries what the clients have sent. A connection ends when its client closes
it, or when the receive buffer is full and `recv` returns 0. -/
def Carried (w : ClientsState) : ThreadLabel → Prop
  | .recv c bytes => bytes <+: (w.peers c).sent
  | .disconnect c => (w.peers c).closed = true ∨
      ∃ connection, w.server.connections c = some connection ∧ connection.bufferPos = uint16Max
  | .finish _ _ _ _ events _ => ∀ e ∈ events, ReadBounded e
  | _ => True

inductive ClientsStep (users : DatabaseHandler) :
    ClientsState → ClientsLabel → ClientsState → Prop where
  | request {w : ClientsState} {c : ConnId} {frame : List UInt8} :
      (w.peers c).closed = false → (w.peers c).outstanding = none → IsRequest frame →
      ClientsStep users w (.request c frame) (w.request c frame)
  /-- The whole frame is there. -/
  | response {w : ClientsState} {c : ConnId} {asked frame rest : List UInt8} :
      (w.peers c).closed = false → (w.peers c).outstanding = some asked →
      max sizeofPacketHeader (declaredSize (w.peers c).unread) ≤ (w.peers c).unread.length →
      recvFromServer (w.peers c).unread = (frame, rest) →
      ClientsStep users w (.response c frame) (w.response c asked frame rest)
  | close {w : ClientsState} {c : ConnId} : (w.peers c).closed = false →
      ClientsStep users w (.close c) (w.close c)
  | server {w : ClientsState} {l : ThreadLabel} {t : ServerState} : Carried w l →
      ThreadStep users w.server l t → ClientsStep users w (.server l) (w.afterServer t l)

/-- The clients and the threads of the server. -/
def clientsSystem (users : DatabaseHandler) : System ClientsState ClientsLabel where
  init := fun w => w = .initial
  step := fun w l v => w.server.terminated = false ∧ ClientsStep users w l v

/-- No client leaves before it has its answer, no admin asks for the settings, and `lseek`
finds the chunk that a client asks for. -/
def InLockstep (w : ClientsState) : ClientsLabel → Prop
  | .close c => (w.peers c).outstanding = none
  | .server (.finish _ packetType _ before events _) =>
      ¬ AsksForSettings packetType before.session ∧
        (packetType = .reqFileDownloadChunk → ¬ ∃ e ∈ events, seekFailed e = true)
  | _ => True

/-! ### What a step of the server leaves alone -/

/-- The packets of a connection that are in flight. -/
def ServerState.flight (s : ServerState) (c : ConnId) : List Task :=
  s.inFlight.filter (·.packet.connection = c)

/-- The connection that a step is about. -/
def ThreadLabel.connection? : ThreadLabel → Option ConnId
  | .accept c _ | .recv c _ | .disconnect c => some c
  | .push task | .finish task _ _ _ _ _ => some task.packet.connection
  | .server | .take _ | .start _ _ => none

/-- What a step does to the packets in flight. -/
def FlightEffect (s t : ServerState) : ThreadLabel → Prop
  | .push task => t.inFlight = task :: s.inFlight
  | .finish task _ _ _ _ _ => s.inFlight.Perm (task :: t.inFlight)
  | _ => t.inFlight.Perm s.inFlight

section Effects

variable {users : DatabaseHandler} {s t : ServerState} {l : ThreadLabel} {c : ConnId}

/-- Only a worker that takes or leaves a packet changes what the workers hold. -/
theorem inFlight_workers (s : ServerState) {front back : List Worker} {w : Worker}
    (hworkers : s.workers = front ++ w :: back) :
    s.inFlight = s.completedPackets ++ s.tasks ++
      (front.filterMap Worker.task? ++ (w.task?.toList ++ back.filterMap Worker.task?)) := by
  rw [ServerState.inFlight, hworkers, filterMap_workers]

theorem inFlight_finish (s : ServerState) (c : ConnId) (connection : ConnectionWrapper)
    (front back : List Worker) (out : Except Fault HandlerState) :
    (s.finish c connection front back out).inFlight = s.completedPackets ++ s.tasks ++
      (front.filterMap Worker.task? ++ back.filterMap Worker.task?) := by
  cases out with
  | ok t => exact inFlight_workers (s.finish c connection front back (.ok t)) rfl
  | error e => exact inFlight_workers (s.finish c connection front back (.error e)) rfl

theorem ThreadStep.flightEffect (step : ThreadStep users s l t) : FlightEffect s t l := by
  cases step with
  | push => rfl
  | dispatchAsync hpc hcompleted =>
      rename_i task rest
      show (rest ++ (s.tasks ++ [task]) ++ s.workers.filterMap Worker.task?).Perm s.inFlight
      rw [ServerState.inFlight, hcompleted, ← List.append_assoc]
      exact (List.perm_append_singleton task (rest ++ s.tasks)).append_right _
  | take htasks hworkers =>
      rename_i task rest front back
      have before := inFlight_workers s hworkers
      have after := inFlight_workers { s with
        tasks := rest, workers := front ++ .taken task :: back } rfl
      show (ServerState.inFlight _).Perm _
      rw [before, after, htasks]
      simp only [Worker.task?, Option.toList_none, Option.toList_some, List.nil_append,
        List.cons_append, List.append_assoc]
      refine List.Perm.append_left _ ?_
      rw [← List.append_assoc, ← List.append_assoc]
      exact List.perm_middle
  | start hworkers hbuffer =>
      rename_i task receiveBuffer front back
      have before := inFlight_workers s hworkers
      have after := inFlight_workers { s with
        workers := front ++ .inProgress task (getPacketType receiveBuffer) :: back
        started := s.started ++ [task] } rfl
      show (ServerState.inFlight _).Perm _
      rw [before, after]
      exact List.Perm.refl _
  | finish fuel tls events out hworkers hlive run hfuel =>
      rename_i task packetType connection front back
      have before := inFlight_workers s hworkers
      have after := inFlight_finish s task.packet.connection connection front back out
      show s.inFlight.Perm _
      rw [before, after]
      simp only [Worker.task?, Option.toList_some, List.cons_append, List.nil_append]
      rw [← List.append_assoc, ← List.append_assoc]
      exact List.perm_middle
  | accept => exact List.Perm.refl _
  | wouldBlock => exact List.Perm.refl _
  | disconnect => exact List.Perm.refl _
  | recv => exact List.Perm.refl _
  | receiveEnd => exact List.Perm.refl _
  | extractEnd => exact List.Perm.refl _
  | handlePacketsEnd => exact List.Perm.refl _
  | activate => exact List.Perm.refl _
  | handlePendingEnd => exact List.Perm.refl _

/-- A step leaves the other connections as they are. -/
theorem ThreadStep.connections_of_ne (step : ThreadStep users s l t)
    (h : l.connection? ≠ some c) : t.connections c = s.connections c := by
  have other {d : ConnId} (hd : some d ≠ some c) : c ≠ d := fun heq => hd (heq ▸ rfl)
  cases step with
  | accept => exact Function.update_of_ne (other h) ..
  | disconnect => exact Function.update_of_ne (other h) ..
  | recv => exact Function.update_of_ne (other h) ..
  | push => exact Function.update_of_ne (other h) ..
  | finish fuel tls events out =>
      cases out with
      | ok t => exact Function.update_of_ne (other h) ..
      | error e => rfl
  | _ => rfl

theorem ThreadStep.flight_of_ne (step : ThreadStep users s l t) (h : l.connection? ≠ some c) :
    (t.flight c).Perm (s.flight c) := by
  have effect := step.flightEffect
  cases l with
  | push task =>
      have hne : task.packet.connection ≠ c := fun heq => h (heq ▸ rfl)
      rw [ServerState.flight, show t.inFlight = task :: s.inFlight from effect,
        List.filter_cons_of_neg (by simpa using hne)]
      exact List.Perm.refl _
  | finish task packetType receiveBuffer before events out =>
      have hne : task.packet.connection ≠ c := fun heq => h (heq ▸ rfl)
      have hperm := List.Perm.filter (fun task : Task => task.packet.connection = c) effect
      rw [List.filter_cons_of_neg (by simpa using hne)] at hperm
      exact hperm.symm
  | accept d socketFd => exact List.Perm.filter _ effect
  | server => exact List.Perm.filter _ effect
  | recv d bytes => exact List.Perm.filter _ effect
  | disconnect d => exact List.Perm.filter _ effect
  | take task => exact List.Perm.filter _ effect
  | start task receiveBuffer => exact List.Perm.filter _ effect

theorem flight_push {task : Task} (effect : FlightEffect s t (.push task)) :
    t.flight task.packet.connection = task :: s.flight task.packet.connection := by
  rw [ServerState.flight, show t.inFlight = task :: s.inFlight from effect,
    List.filter_cons_of_pos (by simp)]
  rfl

theorem mem_flight {task : Task} :
    task ∈ s.flight c ↔ task ∈ s.inFlight ∧ task.packet.connection = c := by
  simp [ServerState.flight]

end Effects

/-! ### Phases -/

/-- How far the request of a client is. -/
inductive Phase where
  | quiet
  | sending (request : List UInt8)
  | pending (request : List UInt8)
  | answered (request response : List UInt8)

namespace Phase

/-- What the client waits for. -/
def request? : Phase → Option (List UInt8)
  | quiet => none
  | sending request => some request
  | pending request => some request
  | answered request _ => some request

/-- What the server has received of the request, and what is on the way. -/
def toServer : Phase → List UInt8
  | sending request => request
  | _ => []

/-- The packets in flight. -/
def packets : Phase → List (List UInt8)
  | pending request => [request]
  | _ => []

/-- What is on the way back. -/
def toClient : Phase → List UInt8
  | answered _ response => response
  | _ => []

/-- What was served and not read. -/
def served (c : ConnId) : Phase → List Exchange
  | answered request response => [{ connection := c, request, response }]
  | _ => []

end Phase

/-- What the receive buffer of a connection holds. -/
def ServerState.residue (s : ServerState) (c : ConnId) : List UInt8 :=
  ((s.connections c).map ConnectionWrapper.residue).getD []

/-- The request of the connection's client is this far. -/
structure InPhase (w : ClientsState) (c : ConnId) (phase : Phase) : Prop where
  isRequest : ∀ request ∈ phase.request?, IsRequest request
  outstanding : (w.peers c).outstanding = phase.request?
  closed : (w.peers c).closed = true → phase = .quiet
  toServer : w.server.residue c ++ (w.peers c).sent = phase.toServer
  packets : (w.server.flight c).map (·.packet.frame) = phase.packets
  /-- The request stays at the front of the receive buffer. -/
  buffer : ∀ request, phase = .pending request → ∃ connection,
    w.server.connections c = some connection ∧ connection.buffer.read 0 request.length = request
  toClient : (w.peers c).unread = phase.toClient
  whole : ∀ request response, phase = .answered request response →
    w.server.terminated = false → declaredSize response = response.length
  served : w.served.filter (·.connection = c) = (w.peers c).exchanges ++ phase.served c

/-- Every client's request is somewhere. -/
def InPhases (w : ClientsState) : Prop := ∀ c, ∃ phase, InPhase w c phase

section Phases

variable {users : DatabaseHandler} {w v : ClientsState} {c : ConnId} {phase : Phase}

/-- A step that does not concern the connection. -/
theorem InPhase.frame (h : InPhase w c phase) (hpeer : v.peers c = w.peers c)
    (hconnection : v.server.connections c = w.server.connections c)
    (hflight : (v.server.flight c).Perm (w.server.flight c))
    (hterminated : v.server.terminated = false → w.server.terminated = false)
    (hserved : v.served.filter (·.connection = c) = w.served.filter (·.connection = c)) :
    InPhase v c phase := by
  refine ⟨h.isRequest, ?_, ?_, ?_, ?_, ?_, ?_, ?_, ?_⟩
  · rw [hpeer]
    exact h.outstanding
  · rw [hpeer]
    exact h.closed
  · rw [ServerState.residue, hconnection, hpeer]
    exact h.toServer
  · have hperm := hflight.map (·.packet.frame)
    rw [h.packets] at hperm
    cases phase with
    | pending request => exact List.perm_singleton.mp hperm
    | quiet => exact List.perm_nil.mp hperm
    | sending request => exact List.perm_nil.mp hperm
    | answered request response => exact List.perm_nil.mp hperm
  · rw [hconnection]
    exact h.buffer
  · rw [hpeer]
    exact h.toClient
  · exact fun request response hphase running => h.whole _ _ hphase (hterminated running)
  · rw [hserved, hpeer]
    exact h.served

/-- A step of a client does not concern the others. -/
theorem InPhase.setPeer_of_ne (h : InPhase w c phase) {d : ConnId} (hd : c ≠ d) (p : Peer) :
    InPhase (w.setPeer d p) c phase :=
  h.frame (Function.update_of_ne hd ..) rfl (List.Perm.refl _) id rfl

theorem InPhases.setPeer {d : ConnId} {p : Peer} (h : InPhases w)
    (here : ∃ phase, InPhase (w.setPeer d p) d phase) : InPhases (w.setPeer d p) := by
  intro c
  by_cases hc : c = d
  · subst hc
    exact here
  · obtain ⟨phase, now⟩ := h c
    exact ⟨phase, now.setPeer_of_ne hc p⟩

theorem InPhase.eq_quiet (h : InPhase w c phase) (hfree : (w.peers c).outstanding = none) :
    phase = .quiet := by
  rw [h.outstanding] at hfree
  cases phase with
  | quiet => rfl
  | sending request => cases hfree
  | pending request => cases hfree
  | answered request response => cases hfree

/-- What is unread belongs to the request that was answered. -/
theorem InPhase.eq_answered (h : InPhase w c phase) (hunread : (w.peers c).unread ≠ []) :
    ∃ request response, phase = .answered request response := by
  rw [h.toClient] at hunread
  cases phase with
  | answered request response => exact ⟨request, response, rfl⟩
  | quiet => exact absurd rfl hunread
  | sending request => exact absurd rfl hunread
  | pending request => exact absurd rfl hunread

/-- What the server has or gets belongs to the request that is being sent. -/
theorem InPhase.eq_sending (h : InPhase w c phase)
    (hstream : w.server.residue c ++ (w.peers c).sent ≠ []) :
    ∃ request, phase = .sending request := by
  rw [h.toServer] at hstream
  cases phase with
  | sending request => exact ⟨request, rfl⟩
  | quiet => exact absurd rfl hstream
  | pending request => exact absurd rfl hstream
  | answered request response => exact absurd rfl hstream

/-- A packet in flight is the request that is pending. -/
theorem InPhase.eq_pending (h : InPhase w c phase) {task : Task}
    (hmem : task ∈ w.server.flight c) : phase = .pending task.packet.frame := by
  have hframe : task.packet.frame ∈ phase.packets := by
    rw [← h.packets]
    exact List.mem_map_of_mem hmem
  cases phase with
  | pending request => rw [List.mem_singleton.mp hframe]
  | quiet => cases hframe
  | sending request => cases hframe
  | answered request response => cases hframe

theorem InPhase.request {frame : List UInt8} (now : InPhase w c .quiet)
    (hopen : (w.peers c).closed = false) (hrequest : IsRequest frame) :
    InPhase (w.request c frame) c (.sending frame) := by
  unfold ClientsState.request
  obtain ⟨hresidue, hsent⟩ := List.append_eq_nil_iff.mp now.toServer
  refine ⟨?_, ?_, ?_, ?_, now.packets, ?_, ?_, ?_, ?_⟩
  · rintro request ⟨⟩
    exact hrequest
  · rw [ClientsState.setPeer_self]
    rfl
  · rw [ClientsState.setPeer_self, hopen]
    rintro ⟨⟩
  · rw [ClientsState.setPeer_self, hsent]
    show w.server.residue c ++ frame = frame
    rw [hresidue, List.nil_append]
  · rintro request ⟨⟩
  · rw [ClientsState.setPeer_self]
    exact now.toClient
  · rintro request response ⟨⟩
  · rw [ClientsState.setPeer_self]
    exact now.served

/-- What a client reads is the answer to its request, and all of it. -/
theorem InPhase.read {asked frame rest : List UInt8} (now : InPhase w c phase)
    (running : w.server.terminated = false) (hasked : (w.peers c).outstanding = some asked)
    (hwhole : max sizeofPacketHeader (declaredSize (w.peers c).unread) ≤
      (w.peers c).unread.length)
    (hrecv : recvFromServer (w.peers c).unread = (frame, rest)) :
    phase = .answered asked frame ∧ rest = [] := by
  have hunread : (w.peers c).unread ≠ [] := by
    intro hnil
    rw [hnil] at hwhole
    exact absurd hwhole (by decide)
  obtain ⟨request, response, rfl⟩ := now.eq_answered hunread
  rw [now.toClient, Phase.toClient, recvFromServer_frame (now.whole _ _ rfl running)] at hrecv
  cases hrecv
  have hsame : request = asked := Option.some.inj (now.outstanding.symm.trans hasked)
  exact ⟨by rw [hsame], rfl⟩

theorem InPhase.response {asked frame : List UInt8} (now : InPhase w c (.answered asked frame)) :
    InPhase (w.response c asked frame []) c .quiet := by
  unfold ClientsState.response
  refine ⟨?_, ?_, fun _ => rfl, ?_, now.packets, ?_, ?_, ?_, ?_⟩
  · rintro request ⟨⟩
  · rw [ClientsState.setPeer_self]
    rfl
  · rw [ClientsState.setPeer_self]
    exact now.toServer
  · rintro request ⟨⟩
  · rw [ClientsState.setPeer_self]
    rfl
  · rintro request response ⟨⟩
  · rw [ClientsState.setPeer_self]
    exact now.served.trans (List.append_nil _).symm

theorem InPhase.close (now : InPhase w c .quiet) : InPhase (w.close c) c .quiet := by
  unfold ClientsState.close
  refine ⟨now.isRequest, ?_, fun _ => rfl, ?_, now.packets, now.buffer, ?_, now.whole, ?_⟩
  · rw [ClientsState.setPeer_self]
    exact now.outstanding
  · rw [ClientsState.setPeer_self]
    exact now.toServer
  · rw [ClientsState.setPeer_self]
    exact now.toClient
  · rw [ClientsState.setPeer_self]
    exact now.served

end Phases

/-! ### Steps of the server -/

section Server

variable {users : DatabaseHandler} {w : ClientsState} {c : ConnId} {phase : Phase}
  {l : ThreadLabel} {t : ServerState} {connection : ConnectionWrapper}

@[simp] theorem ClientsState.afterServer_server (w : ClientsState) (t : ServerState)
    (l : ThreadLabel) : (w.afterServer t l).server = t := by
  cases l <;> rfl

theorem residue_of_live {s : ServerState} (hlive : s.connections c = some connection) :
    s.residue c = connection.residue := by
  rw [ServerState.residue, hlive]
  rfl

theorem residue_of_none {s : ServerState} (hnone : s.connections c = none) : s.residue c = [] := by
  rw [ServerState.residue, hnone]
  rfl

/-- The clients of the other connections see nothing. -/
theorem InPhase.afterServer_of_ne (h : InPhase w c phase)
    (running : w.server.terminated = false) (step : ThreadStep users w.server l t)
    (hc : l.connection? ≠ some c) : InPhase (w.afterServer t l) c phase := by
  have hconnection := step.connections_of_ne hc
  have hflight := step.flight_of_ne hc
  have other {d : ConnId} (hd : some d ≠ some c) : c ≠ d := fun heq => hd (heq ▸ rfl)
  cases l with
  | recv d bytes =>
      exact h.frame (Function.update_of_ne (other hc) ..) hconnection hflight (fun _ => running) rfl
  | finish task packetType receiveBuffer before events out =>
      refine h.frame (Function.update_of_ne (other hc) ..) hconnection hflight
        (fun _ => running) ?_
      show (w.served ++ [_]).filter _ = _
      have hne : task.packet.connection ≠ c := fun heq => hc (heq ▸ rfl)
      rw [List.filter_append, List.filter_cons_of_neg (by simpa using hne), List.filter_nil,
        List.append_nil]
  | accept d socketFd => exact h.frame rfl hconnection hflight (fun _ => running) rfl
  | server => exact h.frame rfl hconnection hflight (fun _ => running) rfl
  | disconnect d => exact h.frame rfl hconnection hflight (fun _ => running) rfl
  | push task => exact h.frame rfl hconnection hflight (fun _ => running) rfl
  | take task => exact h.frame rfl hconnection hflight (fun _ => running) rfl
  | start task receiveBuffer => exact h.frame rfl hconnection hflight (fun _ => running) rfl

/-- A connection that ends is one whose client has left: a receive buffer that is full holds
a complete packet, and would not be received into. -/
theorem InPhase.eq_quiet_of_disconnect (h : InPhase w c phase) (streams : w.server.StreamsOk)
    (carried : Carried w (.disconnect c)) (step : ThreadStep users w.server (.disconnect c) t) :
    phase = .quiet := by
  rcases carried with hclosed | ⟨connection, hlive, hfull⟩
  · exact h.closed hclosed
  exfalso
  have stream := h.toServer
  rw [residue_of_live hlive] at stream
  have hlength : connection.residue.length = uint16Max := by
    rw [ConnectionWrapper.length_residue, hfull]
  have hne : w.server.residue c ++ (w.peers c).sent ≠ [] := by
    intro hnil
    rw [residue_of_live hlive, List.append_eq_nil_iff] at hnil
    rw [hnil.1] at hlength
    cases hlength
  obtain ⟨request, rfl⟩ := h.eq_sending hne
  obtain ⟨⟨hheader, hmax, hsize⟩, -, -⟩ := h.isRequest request rfl
  -- Nothing of the request is on the way.
  have hall : connection.residue = request := by
    have hsum := congrArg List.length stream
    rw [List.length_append, hlength] at hsum
    have hnil : (w.peers c).sent = [] := by
      apply List.eq_nil_of_length_eq_zero
      change _ = request.length at hsum
      omega
    rwa [hnil, List.append_nil] at stream
  have hcomplete : packetFraming.size connection.residue = some request.length := by
    rw [hall]
    exact packetSize?_eq_some.mpr ⟨hheader, by omega, Nat.le_refl _, hsize⟩
  cases step with
  | disconnect events hpc hit hlive' run =>
      have here := streams c
      rw [hlive, extracting_of_receive hpc] at here
      rw [here.2] at hcomplete
      cases hcomplete

theorem InPhase.accept {socketFd : Int} (h : InPhase w c phase)
    (hfree : w.server.connections c = none) (running : w.server.terminated = false) :
    InPhase (w.afterServer (w.server.accept c socketFd) (.accept c socketFd)) c phase := by
  have hlive : (w.server.accept c socketFd).connections c = some (.accepted socketFd) :=
    Function.update_self ..
  refine ⟨h.isRequest, h.outstanding, h.closed, ?_, h.packets, ?_, h.toClient, ?_, h.served⟩
  · have stream := h.toServer
    rw [residue_of_none hfree] at stream
    show (w.server.accept c socketFd).residue c ++ (w.peers c).sent = _
    rw [residue_of_live hlive]
    exact stream
  · intro request hphase
    obtain ⟨connection, hconnection, -⟩ := h.buffer request hphase
    rw [hfree] at hconnection
    cases hconnection
  · exact fun request response hphase _ => h.whole _ _ hphase running

theorem InPhase.disconnect {it : Nat} {g : GlobalState} (h : InPhase w c .quiet) :
    InPhase (w.afterServer (w.server.disconnect it c g) (.disconnect c)) c .quiet := by
  have hnone : (w.server.disconnect it c g).connections c = none := Function.update_self ..
  refine ⟨h.isRequest, h.outstanding, h.closed, ?_, h.packets, ?_, h.toClient, ?_, h.served⟩
  · show (w.server.disconnect it c g).residue c ++ (w.peers c).sent = []
    rw [residue_of_none hnone]
    exact (List.append_eq_nil_iff.mp h.toServer).2
  · rintro request ⟨⟩
  · rintro request response ⟨⟩

/-- A piece of the request arrives. -/
theorem InPhase.recv {it : Nat} {bytes : List UInt8} (h : InPhase w c phase)
    (hlive : w.server.connections c = some connection) (hne : bytes ≠ [])
    (hfits : bytes.length ≤ uint16Max - connection.bufferPos)
    (carried : bytes <+: (w.peers c).sent) :
    InPhase (w.afterServer (w.server.recv it c connection bytes) (.recv c bytes)) c phase := by
  obtain ⟨later, hsent⟩ := carried
  have hstream : w.server.residue c ++ (w.peers c).sent ≠ [] := by
    rw [← hsent]
    simp [hne]
  obtain ⟨request, rfl⟩ := h.eq_sending hstream
  have hlive' : (w.server.recv it c connection bytes).connections c =
      some (connection.recv bytes) := Function.update_self ..
  have hpeer : (w.afterServer (w.server.recv it c connection bytes) (.recv c bytes)).peers c =
      { w.peers c with sent := (w.peers c).sent.drop bytes.length } := Function.update_self ..
  refine ⟨h.isRequest, ?_, ?_, ?_, h.packets, ?_, ?_, ?_, ?_⟩
  · rw [hpeer]
    exact h.outstanding
  · rw [hpeer]
    exact h.closed
  · have stream := h.toServer
    rw [residue_of_live hlive, ← hsent, ← List.append_assoc,
      ← ConnectionWrapper.residue_recv hne hfits] at stream
    rw [hpeer, ← hsent, List.drop_left]
    exact (congrArg (· ++ later) (residue_of_live hlive')).trans stream
  · rintro request ⟨⟩
  · rw [hpeer]
    exact h.toClient
  · rintro request response ⟨⟩
  · rw [hpeer]
    exact h.served

/-- The packet that is cut off is the request. -/
theorem InPhase.cut {packetSize : Nat} (h : InPhase w c phase) (streams : w.server.StreamsOk)
    (hextracting : w.server.extracting c = some packetSize)
    (hlive : w.server.connections c = some connection) (hfits : packetSize ≤ connection.bufferPos)
    (hne : packetSize ≠ 0) :
    ∃ request, phase = .sending request ∧ packetSize = request.length ∧
      connection.residue = request ∧ (w.peers c).sent = [] := by
  have here := streams c
  rw [hlive, hextracting] at here
  obtain ⟨-, hheader, rfl⟩ := here
  have hsize : packetFraming.size connection.residue = some connection.buffer.totalSize := by
    rw [size_residue_of_header hheader, if_pos ⟨hfits, hne⟩]
  have stream := h.toServer
  have hstream : w.server.residue c ++ (w.peers c).sent ≠ [] := by
    intro hnil
    rw [residue_of_live hlive, List.append_eq_nil_iff] at hnil
    have hlength := congrArg List.length hnil.1
    rw [ConnectionWrapper.length_residue] at hlength
    change connection.bufferPos = 0 at hlength
    omega
  obtain ⟨request, rfl⟩ := h.eq_sending hstream
  obtain ⟨⟨hrequest, hmax, hdeclared⟩, -, -⟩ := h.isRequest request rfl
  rw [residue_of_live hlive] at stream
  change _ = request at stream
  have hcut := packetFraming.size_append hsize (w.peers c).sent
  rw [stream] at hcut
  have hlength : connection.buffer.totalSize = request.length :=
    (packetSize?_eq_some.mp hcut).2.2.2.symm.trans hdeclared
  have hsent : (w.peers c).sent = [] := by
    have hsum := congrArg List.length stream
    rw [List.length_append, ConnectionWrapper.length_residue] at hsum
    apply List.eq_nil_of_length_eq_zero
    omega
  refine ⟨request, rfl, hlength, ?_, hsent⟩
  rwa [hsent, List.append_nil] at stream

/-- The request is copied, and stays where it was. -/
theorem InPhase.push {it packetSize : Nat} (h : InPhase w c phase) (streams : w.server.StreamsOk)
    (hextracting : w.server.extracting c = some packetSize)
    (hlive : w.server.connections c = some connection) (hfits : packetSize ≤ connection.bufferPos)
    (hne : packetSize ≠ 0) :
    ∃ request, InPhase (w.afterServer (w.server.push it c connection packetSize)
      (.push (w.server.nextTask c connection packetSize))) c (.pending request) := by
  obtain ⟨request, rfl, rfl, hresidue, hsent⟩ := h.cut streams hextracting hlive hfits hne
  have hlength : connection.bufferPos = request.length := by
    rw [← hresidue, ConnectionWrapper.length_residue]
  have hread : connection.buffer.read 0 request.length = request := by
    rw [← hlength]
    exact hresidue
  have hshift : (connection.shift request.length).1 = { connection with bufferPos := 0 } := by
    rw [ConnectionWrapper.shift, hlength, Nat.sub_self]
    rfl
  have hlive' : (w.server.push it c connection request.length).connections c =
      some { connection with bufferPos := 0 } := by
    rw [← hshift]
    exact Function.update_self ..
  refine ⟨request, h.isRequest, h.outstanding, ?_, ?_, ?_, ?_, h.toClient, ?_, h.served⟩
  · intro hclosed
    cases h.closed hclosed
  · show (w.server.push it c connection request.length).residue c ++ (w.peers c).sent = []
    rw [residue_of_live hlive', hsent]
    rfl
  · have hflight := @flight_push w.server (w.server.push it c connection request.length)
      (w.server.nextTask c connection request.length) rfl
    show ((w.server.push it c connection request.length).flight
      (w.server.nextTask c connection request.length).packet.connection).map _ = [request]
    rw [hflight, List.map_cons]
    show connection.buffer.read 0 request.length :: (w.server.flight c).map _ = [request]
    rw [hread, h.packets]
    rfl
  · rintro request' ⟨⟩
    exact ⟨_, hlive', hread⟩
  · rintro request' response ⟨⟩

/-- A handler leaves the receive buffer. -/
theorem residue_finish {s : ServerState} (hlive : s.connections c = some connection)
    (front back : List Worker) (out : Except Fault HandlerState) :
    (s.finish c connection front back out).residue c = s.residue c := by
  rw [residue_of_live hlive]
  cases out with
  | ok u =>
      have hlive' : (s.finish c connection front back (.ok u)).connections c =
          some { connection with toSession := u.session } := Function.update_self ..
      rw [residue_of_live hlive']
      rfl
  | error e => exact residue_of_live hlive

/-- The packet that was served was the only one of its connection. -/
theorem InPhase.flight_finish {task : Task} (h : InPhase w c (.pending task.packet.frame))
    (hc : task.packet.connection = c) (effect : w.server.inFlight.Perm (task :: t.inFlight)) :
    t.flight c = [] := by
  have hperm := effect.filter (fun task : Task => task.packet.connection = c)
  rw [List.filter_cons_of_pos (by simpa using hc)] at hperm
  have hframes := hperm.map (·.packet.frame)
  have hsingle : (w.server.flight c).map (·.packet.frame) = [task.packet.frame] := h.packets
  rw [ServerState.flight] at hsingle
  rw [hsingle, List.map_cons] at hframes
  have hnil := List.cons.inj (List.singleton_perm.mp hframes).symm
  exact List.map_eq_nil_iff.mp hnil.2

/-- The answer goes to the client whose request was pending. -/
theorem InPhase.finish {task : Task} {packetType : PacketType} {receiveBuffer : Buffer}
    {before : HandlerState} {events : List ServerEvent} {out : Except Fault HandlerState}
    {front back : List Worker} (h : InPhase w task.packet.connection phase)
    (hmem : task ∈ w.server.inFlight)
    (hlive : w.server.connections task.packet.connection = some connection)
    (step : ThreadStep users w.server (.finish task packetType receiveBuffer before events out)
      (w.server.finish task.packet.connection connection front back out))
    (one : ∀ t, out = .ok t → OneFrame (sends events)) :
    InPhase (w.afterServer (w.server.finish task.packet.connection connection front back out)
        (.finish task packetType receiveBuffer before events out)) task.packet.connection
      (.answered task.packet.frame (sends events).flatten) := by
  have hpending := h.eq_pending (mem_flight.mpr ⟨hmem, rfl⟩)
  subst hpending
  have hflight := h.flight_finish rfl step.flightEffect
  have hpeer : (w.afterServer (w.server.finish task.packet.connection connection front back out)
      (.finish task packetType receiveBuffer before events out)).peers task.packet.connection =
      { w.peers task.packet.connection with
        unread := (w.peers task.packet.connection).unread ++ (sends events).flatten } :=
    Function.update_self ..
  refine ⟨h.isRequest, ?_, ?_, ?_, ?_, ?_, ?_, ?_, ?_⟩
  · rw [hpeer]
    exact h.outstanding
  · rw [hpeer]
    intro hclosed
    cases h.closed hclosed
  · rw [hpeer]
    exact (congrArg (· ++ _) (residue_finish hlive front back out)).trans h.toServer
  · exact congrArg (List.map _) hflight
  · rintro request ⟨⟩
  · rw [hpeer]
    exact congrArg (· ++ (sends events).flatten) h.toClient
  · rintro request response ⟨⟩ running
    cases out with
    | ok u =>
        obtain ⟨frame, hframes, hsize⟩ := one u rfl
        simpa [hframes] using hsize
    | error e => cases running
  · rw [hpeer]
    show (w.served ++ [_]).filter _ = _
    rw [List.filter_append, List.filter_cons_of_pos (by simp), List.filter_nil, h.served]
    exact congrArg (· ++ _) (List.append_nil _)

end Server

end ConcurrentTcp
