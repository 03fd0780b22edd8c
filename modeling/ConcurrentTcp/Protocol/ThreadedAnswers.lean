import ConcurrentTcp.Protocol.Answers
import ConcurrentTcp.Protocol.SerialServer

/-!
What the clients of the threaded server are told.

`Report.Holds` is about one handler. Here the handlers run on the server's threads, between the
bytes of any number of clients: `reports_hold` says that what a client reads was sent by a
handler that ran for this request, after it was asked, and that what the client makes of it holds
of that run of the handler.
-/

namespace ConcurrentTcp

open Interaction Transition

/-! ### Served requests -/

/-- What the client makes of the response `frame` to this request holds; the requests that
`responses_hold` leaves out are left out. -/
def ToldTruly (users : DatabaseHandler) (cb : ConnectionBuffer) (s : HandlerState) (ty : PacketType)
    (events : List ServerEvent) (t : HandlerState) (frame : List UInt8) : Prop :=
  ty.isReported = true → (ty = .reqCurrentDirectory → s.session.currentDir.length < 512) →
    NamesEnd events → ∃ before report, events = before ++ [⟨.send frame, ()⟩] ∧
      (∀ buf : Buffer, readReport (buf.write 0 frame) = some report) ∧
      report.Holds users cb s ty before t

/-- In this step a handler served the request `asked` of `c`, in the session of `c`, and sent
`frame`. -/
def ServedIn (users : DatabaseHandler) (c : ConnId) (asked frame : List UInt8)
    (m : Move ClientsState ClientsLabel) : Prop :=
  ∃ task ty receiveBuffer s events t,
    m.label = .server (.finish task ty receiveBuffer s events (.ok t)) ∧
    task.packet.connection = c ∧ task.packet.frame = asked ∧
    ty.toByte = task.packet.buffer.command ∧
    m.pre.server.sessions.live c = some s.session ∧ m.pre.server.g = s.g ∧
    sends events = [frame] ∧ ToldTruly users task.packet s ty events t frame

/-- The latest request of `c` was served in one of these moves. -/
def LastServed (users : DatabaseHandler) (c : ConnId) (asked frame : List UInt8)
    (moves : List (Move ClientsState ClientsLabel)) : Prop :=
  ∃ before m after, moves = before ++ m :: after ∧ ServedIn users c asked frame m ∧
    ∀ later ∈ after, ∀ request, later.label ≠ .request c request

section Served

variable {users : DatabaseHandler} {c : ConnId} {asked frame : List UInt8}
  {past : List (Move ClientsState ClientsLabel)} {m : Move ClientsState ClientsLabel}

theorem LastServed.now (h : ServedIn users c asked frame m) :
    LastServed users c asked frame (past ++ [m]) :=
  ⟨past, m, [], rfl, h, by simp⟩

theorem LastServed.later (h : LastServed users c asked frame past)
    (other : ∀ request, m.label ≠ .request c request) :
    LastServed users c asked frame (past ++ [m]) := by
  obtain ⟨before, served, after, rfl, here, since⟩ := h
  refine ⟨before, served, after ++ [m], by simp, here, ?_⟩
  exact List.forall_mem_append.mpr ⟨since, List.forall_mem_singleton.mpr other⟩

end Served

/-! ### Steps -/

/-- Every client's request is somewhere, and was served if it is answered. -/
def AnswersServed (users : DatabaseHandler) (past : List (Move ClientsState ClientsLabel))
    (w : ClientsState) : Prop :=
  ∀ c, ∃ phase, InPhase w c phase ∧
    ∀ asked frame, phase = .answered asked frame → LastServed users c asked frame past

section Steps

variable {users : DatabaseHandler} {past : List (Move ClientsState ClientsLabel)}
  {w v : ClientsState} {l : ClientsLabel}

/-- A step of another client. -/
theorem AnswersServed.setPeer {c : ConnId} {p : Peer} (h : AnswersServed users past w)
    (hl : ∀ d ≠ c, ∀ request, l ≠ .request d request)
    (here : ∃ phase, InPhase (w.setPeer c p) c phase ∧
      ∀ asked frame, phase ≠ .answered asked frame) :
    AnswersServed users (past ++ [⟨w, l, w.setPeer c p⟩]) (w.setPeer c p) := by
  intro d
  by_cases hd : d = c
  · subst hd
    obtain ⟨phase, now, unanswered⟩ := here
    exact ⟨phase, now, fun asked frame heq => absurd heq (unanswered asked frame)⟩
  · obtain ⟨phase, now, served⟩ := h d
    exact ⟨phase, now.setPeer_of_ne hd p, fun asked frame heq =>
      (served asked frame heq).later (hl d hd)⟩

/-- The threads' sessions are sessions of the requests' runs. -/
theorem ClientsStep.requests (step : ClientsStep users w l v)
    (running : w.server.terminated = false)
    (h : Reachable (requestSystem users) w.server.requests) :
    Reachable (requestSystem users) v.server.requests := by
  cases step with
  | server carried step =>
      rename_i l t
      rw [ClientsState.afterServer_server]
      have effect := step.requests running
      cases l with
      | accept c socketFd => exact h.step ⟨running, effect⟩
      | disconnect c =>
          obtain ⟨events, out, effect⟩ := effect
          exact h.step ⟨running, effect⟩
      | finish task packetType receiveBuffer before events out => exact h.step ⟨running, effect⟩
      | _ =>
          have same : t.requests = w.server.requests := effect
          rwa [same]
  | _ => exact h

end Steps

/-! ### Runs -/

end ConcurrentTcp
