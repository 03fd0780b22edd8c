import ConcurrentTcp.Server.Sessions

/-!
Requests: the sessions' steps with everything they did.

`requestSystem` has the steps of `sessionSystem`, and its labels also say which
calls a step made, with the answers, and how it ended. A step that faults is
taken too: it ends the process.
-/

namespace ConcurrentTcp

open Interaction Transition

inductive RequestLabel where
  | accept (c : ConnId) (socketFd : Int)
  | packet (c : ConnId) (packetType : PacketType) (receiveBuffer : Buffer) (cb : ConnectionBuffer)
      (tls : Buffer) (events : List ServerEvent) (out : Except Fault HandlerState)
  | disconnect (c : ConnId) (events : List ServerEvent) (out : Except Fault GlobalState)

/-- The connection a step is about. -/
def RequestLabel.connection : RequestLabel → ConnId
  | .accept c _ => c
  | .packet c _ _ _ _ _ _ => c
  | .disconnect c _ _ => c

structure RequestState extends SessionState where
  terminated : Bool

namespace RequestState

def initial : RequestState := { SessionState.initial with terminated := false }

/-- A step of connection `c` has ended. -/
def next (w : RequestState) (c : ConnId) :
    Except Fault (Option Session × GlobalState) → RequestState
  | .ok (session, g) => { w.set c session g with terminated := false }
  | .error _ => { w with terminated := true }

@[simp] theorem live_next_self (w : RequestState) (c : ConnId) (new : Option Session)
    (g : GlobalState) : (w.next c (.ok (new, g))).live c = new :=
  SessionState.set_live_self ..

theorem live_next_of_ne (w : RequestState) {c d : ConnId}
    (out : Except Fault (Option Session × GlobalState)) (h : d ≠ c) :
    (w.next c out).live d = w.live d := by
  cases out with
  | ok after => exact SessionState.set_live_of_ne _ _ _ h
  | error e => rfl

end RequestState

/-- Each request, with its handler's whole execution, is one step. -/
inductive RequestStep (users : DatabaseHandler) :
    RequestState → RequestLabel → RequestState → Prop where
  | accept {w : RequestState} {c : ConnId} {socketFd : Int} : w.live c = none →
      RequestStep users w (.accept c socketFd)
        (w.next c (.ok (some (.accepted socketFd), w.g)))
  | packet {w : RequestState} {c : ConnId} {ty : PacketType} {receiveBuffer tls : Buffer}
      {cb : ConnectionBuffer} {session : Session} {events : List ServerEvent}
      {out : Except Fault HandlerState} (fuel : Nat) : w.live c = some session →
      Exec (dispatch users fuel ty receiveBuffer cb ⟨session, w.g, tls⟩) events out →
      out ≠ .error .outOfFuel →
      RequestStep users w (.packet c ty receiveBuffer cb tls events out)
        (w.next c (out.map fun t => (some t.session, t.g)))
  | disconnect {w : RequestState} {c : ConnId} {session : Session} {events : List ServerEvent}
      {out : Except Fault GlobalState} : w.live c = some session →
      Exec (destroyConnection session w.g) events out →
      RequestStep users w (.disconnect c events out) (w.next c (out.map fun g => (none, g)))

/-- Requests over a fixed user database. A process that has ended takes no steps. -/
def requestSystem (users : DatabaseHandler) : System RequestState RequestLabel where
  init := fun w => w = .initial
  step := fun w l v => w.terminated = false ∧ RequestStep users w l v

section Sessions

variable {users : DatabaseHandler} {w v : RequestState} {l : RequestLabel}

/-- The inversion of a request. -/
theorem RequestStep.packet_inv {c : ConnId} {ty : PacketType} {receiveBuffer tls : Buffer}
    {cb : ConnectionBuffer} {events : List ServerEvent} {out : Except Fault HandlerState}
    (step : RequestStep users w (.packet c ty receiveBuffer cb tls events out) v) :
    ∃ fuel session, w.live c = some session ∧
      Exec (dispatch users fuel ty receiveBuffer cb ⟨session, w.g, tls⟩) events out ∧
      out ≠ .error .outOfFuel ∧ v = w.next c (out.map fun t => (some t.session, t.g)) := by
  cases step with
  | packet fuel hlive run hfuel => exact ⟨fuel, _, hlive, run, hfuel, rfl⟩

theorem RequestStep.disconnect_inv {c : ConnId} {session : Session} {events : List ServerEvent}
    {out : Except Fault GlobalState} (step : RequestStep users w (.disconnect c events out) v)
    (hlive : w.live c = some session) :
    Exec (destroyConnection session w.g) events out ∧
      v = w.next c (out.map fun g => (none, g)) := by
  cases step with
  | disconnect hlive' run =>
      cases hlive.symm.trans hlive'
      exact ⟨run, rfl⟩

/-- A step leaves the other connections as they are. -/
theorem RequestStep.live_of_ne (step : RequestStep users w l v) {d : ConnId}
    (h : d ≠ l.connection) : v.live d = w.live d := by
  cases step with
  | accept hfree => exact w.live_next_of_ne _ h
  | packet fuel hlive run hfuel => exact w.live_next_of_ne _ h
  | disconnect hlive run => exact w.live_next_of_ne _ h

/-- A step is one of the sessions, or ends the process. -/
theorem RequestStep.sessions (step : RequestStep users w l v) :
    v.terminated = true ∧ v.toSessionState = w.toSessionState ∨
      ∃ l', SessionStep users w.toSessionState l' v.toSessionState := by
  cases step with
  | accept hfree => exact .inr ⟨_, .accept hfree⟩
  | @packet c ty receiveBuffer tls cb session events out fuel hlive run hfuel =>
      cases out with
      | ok t => exact .inr ⟨.packet c ty receiveBuffer cb, .packet fuel tls events t hlive run⟩
      | error e => exact .inl ⟨rfl, rfl⟩
  | @disconnect c session events out hlive run =>
      cases out with
      | ok g => exact .inr ⟨.disconnect c, .disconnect events hlive run⟩
      | error e => exact .inl ⟨rfl, rfl⟩

/-- Whatever sessions requests reach, the system of sessions reaches. -/
theorem requestSystem_refines_sessions (h : Reachable (requestSystem users) w) :
    Reachable (sessionSystem users) w.toSessionState := by
  refine Reachable.invariant
    (I := fun w => Reachable (sessionSystem users) w.toSessionState) ?_ ?_ h
  · rintro start rfl
    exact .initial rfl
  · rintro w l v now ⟨-, step⟩
    rcases step.sessions with ⟨-, same⟩ | ⟨l', next⟩
    · rw [same]
      exact now
    · exact now.step next

end Sessions

/-! ### What a step sent -/

/-- An answer of the given type was sent. -/
def Answered (events : List ServerEvent) (answer : PacketType) : Prop :=
  ∃ e ∈ events, ∃ bytes, e.op = .send bytes ∧ bytes[1]? = some answer.toByte

theorem exec_respond_iff {s : HandlerState} {p : Buffer} {length : Nat}
    {events : List ServerEvent} {out : Except Fault HandlerState} :
    Exec (s.respond p length) events out ↔
      events = [⟨.send (p.read 0 length), ()⟩] ∧ out = .ok { s with tls := p } := by
  constructor
  · intro run
    obtain ⟨ans, rest, rfl, sent⟩ := Exec.call_iff.mp run
    cases ans
    have sent : Exec (.ret { s with tls := p }) rest out := sent
    obtain ⟨rfl, rfl⟩ := Exec.ret_iff.mp sent
    exact ⟨rfl, rfl⟩
  · rintro ⟨rfl, rfl⟩
    exact exec_respond s p length

/-! ### What a dispatch runs -/

/-- A dispatch is a refusal, an empty slot, or a handler's run. -/
theorem dispatch_cases {users : DatabaseHandler} {fuel : Nat} {receiveBuffer : Buffer}
    {cb : ConnectionBuffer} {ty : PacketType} {s : HandlerState} {events : List ServerEvent}
    {out : Except Fault HandlerState}
    (run : Exec (dispatch users fuel ty receiveBuffer cb s) events out) :
    (ty.needsNoLogin = false ∧ s.session.id = [] ∧ Exec (sendRespUnauthorized s) events out) ∨
      (¬ (ty.needsNoLogin = false ∧ s.session.id = []) ∧
        handlers users fuel receiveBuffer cb ty = none ∧ events = [] ∧
        out = .error .badFunctionCall) ∨
      ∃ handler, ¬ (ty.needsNoLogin = false ∧ s.session.id = []) ∧
        handlers users fuel receiveBuffer cb ty = some handler ∧ Exec (handler s) events out := by
  unfold dispatch at run
  split at run
  · rename_i hgate
    simp only [Bool.and_eq_true, Bool.not_eq_true', List.isEmpty_iff] at hgate
    exact .inl ⟨hgate.1, hgate.2, run⟩
  rename_i hgate
  have hopen : ¬ (ty.needsNoLogin = false ∧ s.session.id = []) := by simpa using hgate
  split at run
  · rename_i handler hhandler
    exact .inr (.inr ⟨handler, hopen, hhandler, run⟩)
  · rename_i hempty
    obtain ⟨rfl, rfl⟩ := Exec.fail_iff.mp run
    exact .inr (.inl ⟨hopen, hempty, rfl, rfl⟩)

end ConcurrentTcp
