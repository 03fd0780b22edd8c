import ConcurrentTcp.Protocol.LockstepClients
import ConcurrentTcp.Server.Answerable
import ConcurrentTcp.Server.Turns

/-!
Clients that wait can be answered.

`AllAnswerable` says of the requests without an answer that their strings end and that none is
that of an admin for the settings. Then, from every state of a run in order, the server alone can
go on until a client has its answer: `waiting_answered` says so for every client that the server
has accepted, whatever the others wait for and wherever the threads are. What the client gets
must have a header; only the answer with a chunk that could not be read has none.
-/

namespace ConcurrentTcp

open Interaction Transition

/-! ### Clients that wait -/

/-- What is there of an answer does not have all of its header. -/
def Peer.CutShort (p : Peer) : Prop := p.unread ≠ [] ∧ p.unread.length < sizeofPacketHeader

/-- The requests of accepted clients that have no answer yet can be answered. -/
def AllAnswerable (w : ClientsState) : Prop :=
  ∀ (c : ConnId) (request : List UInt8) (connection : ConnectionWrapper) (ty : PacketType),
    (w.peers c).outstanding = some request → (w.peers c).unread = [] →
    w.server.connections c = some connection →
    ty.toByte = (ConnectionBuffer.mk c request).buffer.command →
    Answerable ⟨c, request⟩ connection.toSession ty

/-- A step of the server in order that accepts and loses nobody; a handler that is run returns
and has sent an answer with a header. -/
def Serving (w : ClientsState) (l : ClientsLabel) : Prop :=
  InLockstep w l ∧ match l with
    | .server (.accept _ _) | .server (.disconnect _) => False
    | .server (.finish _ _ _ _ events out) => (∃ t, out = .ok t) ∧ HeadedFrame (sends events)
    | .server _ => True
    | _ => False

/-! ### Runs in order -/

/-- What holds in every state of a run in order, and the lists of the server. -/
structure Kept (users : DatabaseHandler) (w : ClientsState) : Prop where
  good : Good users w
  listed : w.server.Listed
  said : w.server.terminated = false → ∀ e ∈ w.served, e.response ≠ []

section Kept

variable {users : DatabaseHandler} {w v : ClientsState} {l : ClientsLabel}

/-- What a handler in order has sent when it returns. -/
theorem ClientsStep.answer {task : Task} {packetType : PacketType} {receiveBuffer : Buffer}
    {before t : HandlerState} {events : List ServerEvent}
    (step : ClientsStep users w (.server (.finish task packetType receiveBuffer before events
      (.ok t))) v) (good : Good users w)
    (lockstep : InLockstep w (.server (.finish task packetType receiveBuffer before events
      (.ok t)))) : HeadedFrame (sends events) ∨ ChunkCut packetType events := by
  cases step with
  | server carried step =>
      have hmem := step.mem_inFlight (.inr (.inr ⟨_, _, _, _, _, rfl⟩))
      cases step with
      | finish fuel tls events out hworkers hlive run hfuel =>
          have own := good.typed _ _ (hworkers ▸ List.mem_append_right _ List.mem_cons_self)
          exact dispatch_headed ((good.phases.held hmem).isAnswered own) carried lockstep.1
            lockstep.2 run

theorem HeadedFrame.flatten_length {frames : List (List UInt8)} (h : HeadedFrame frames) :
    sizeofPacketHeader ≤ frames.flatten.length := by
  obtain ⟨frame, rfl, -, hlength⟩ := h
  rwa [List.flatten_singleton]

theorem ne_nil_of_answer {packetType : PacketType} {events : List ServerEvent}
    (h : HeadedFrame (sends events) ∨ ChunkCut packetType events) :
    (sends events).flatten ≠ [] := by
  intro hnil
  rcases h with headed | ⟨-, -, hlength⟩
  · have := headed.flatten_length
    rw [hnil] at this
    exact absurd this (by decide)
  · rw [hnil] at hlength
    cases hlength

/-- No answer is empty. -/
theorem ClientsStep.said (step : ClientsStep users w l v) (kept : Kept users w)
    (running : w.server.terminated = false) (lockstep : InLockstep w l)
    (still : v.server.terminated = false) : ∀ e ∈ v.served, e.response ≠ [] := by
  have before := kept.said running
  have whole := step
  cases step with
  | server carried step =>
      cases step with
      | finish fuel tls events out hworkers hlive run hfuel =>
          cases out with
          | error e => cases still
          | ok t =>
              intro e hmem
              rcases List.mem_append.mp hmem with hold | hnew
              · exact before e hold
              · cases List.mem_singleton.mp hnew
                exact ne_nil_of_answer (whole.answer kept.good lockstep)
      | _ => exact before
  | _ => exact before

theorem ClientsStep.kept (step : ClientsStep users w l v) (kept : Kept users w)
    (running : w.server.terminated = false) (lockstep : InLockstep w l) : Kept users v where
  good := step.good kept.good running lockstep
  listed := by
    cases step with
    | server carried step =>
        rw [ClientsState.afterServer_server]
        exact step.listed kept.listed
    | _ => exact kept.listed
  said := step.said kept running lockstep

end Kept

/-! ### Answers cut short -/

section CutShort

variable {users : DatabaseHandler} {w v : ClientsState} {l : ClientsLabel} {c : ConnId}

/-- The clients of other connections are left alone. -/
theorem peers_afterServer_of_ne {t : ServerState} {l : ThreadLabel}
    (h : l.connection? ≠ some c) : (w.afterServer t l).peers c = w.peers c := by
  have other {d : ConnId} (hd : some d ≠ some c) : c ≠ d := fun heq => hd (heq ▸ rfl)
  cases l with
  | recv d bytes => exact Function.update_of_ne (other h) ..
  | finish task => exact Function.update_of_ne (other h) ..
  | _ => rfl

/-- What a step sends to a client. -/
def ThreadLabel.answerTo (c : ConnId) : ThreadLabel → List UInt8
  | .finish task _ _ _ events _ =>
      if task.packet.connection = c then (sends events).flatten else []
  | _ => []

theorem unread_afterServer (t : ServerState) (l : ThreadLabel) :
    ((w.afterServer t l).peers c).unread = (w.peers c).unread ++ l.answerTo c := by
  by_cases hc : l.connection? = some c
  · cases l with
    | recv d bytes =>
        cases hc
        show (Function.update w.peers _ _ _).unread = _ ++ []
        rw [Function.update_self, List.append_nil]
    | finish task packetType receiveBuffer before events out =>
        cases hc
        show (Function.update w.peers _ _ _).unread = _ ++ if _ then _ else _
        rw [Function.update_self, if_pos rfl]
    | server => cases hc
    | take task => cases hc
    | start task receiveBuffer => cases hc
    | _ => exact (List.append_nil _).symm
  · rw [peers_afterServer_of_ne hc]
    cases l with
    | finish task packetType receiveBuffer before events out =>
        have hne : task.packet.connection ≠ c := fun heq => hc (heq ▸ rfl)
        show _ = _ ++ if _ then _ else _
        rw [if_neg hne, List.append_nil]
    | _ => exact (List.append_nil _).symm

theorem unread_setPeer (d : ConnId) (p : Peer) :
    ((w.setPeer d p).peers c).unread = if c = d then p.unread else (w.peers c).unread := by
  by_cases heq : c = d
  · subst heq
    rw [ClientsState.setPeer_self, if_pos rfl]
  · rw [if_neg heq]
    exact congrArg Peer.unread (Function.update_of_ne heq ..)

/-- A client reads all of its answer, and what is sent to it waits for it. -/
theorem ClientsStep.unread (step : ClientsStep users w l v) (good : Good users w)
    (running : w.server.terminated = false) (c : ConnId) :
    (v.peers c).unread = [] ∨ (v.peers c).unread = (w.peers c).unread ∨
      ∃ l', l = .server l' ∧ (v.peers c).unread = (w.peers c).unread ++ l'.answerTo c := by
  cases step with
  | request =>
      refine .inr (.inl ((unread_setPeer _ _).trans ?_))
      split
      · rename_i heq
        rw [heq]
      · rfl
  | response hopen hasked hwhole hrecv =>
      rename_i d asked frame rest
      obtain ⟨phase, now⟩ := good.phases d
      obtain ⟨-, rfl⟩ := now.read running hasked hwhole hrecv
      have hunread := unread_setPeer (w := w) (c := c) d
        { w.peers d with
          outstanding := none
          unread := []
          exchanges := (w.peers d).exchanges ++
            [{ connection := d, request := asked, response := frame }] }
      split at hunread
      · exact .inl hunread
      · exact .inr (.inl hunread)
  | close =>
      refine .inr (.inl ((unread_setPeer _ _).trans ?_))
      split
      · rename_i heq
        rw [heq]
      · rfl
  | server carried step => exact .inr (.inr ⟨_, rfl, unread_afterServer _ _⟩)

end CutShort

/-! ### Steps of the server alone -/

/-- The server runs, and can answer what waits. -/
structure Serviceable (users : DatabaseHandler) (w : ClientsState) : Prop where
  kept : Kept users w
  running : w.server.terminated = false
  answerable : AllAnswerable w

section Serving

variable {users : DatabaseHandler} {w v : ClientsState} {l : ClientsLabel} {c : ConnId}

/-- Such a step is one of the server. -/
theorem Serving.exists_server (serving : Serving w l) (step : ClientsStep users w l v) :
    ∃ l' t, l = .server l' ∧ v = w.afterServer t l' ∧ Carried w l' ∧
      ThreadStep users w.server l' t := by
  cases step with
  | server carried step => exact ⟨_, _, rfl, rfl, carried, step⟩
  | _ => exact serving.2.elim

theorem outstanding_afterServer (t : ServerState) (l : ThreadLabel) :
    ((w.afterServer t l).peers c).outstanding = (w.peers c).outstanding := by
  by_cases hc : l.connection? = some c
  · cases l with
    | recv d bytes =>
        cases hc
        show (Function.update w.peers _ _ _).outstanding = _
        rw [Function.update_self]
    | finish task =>
        cases hc
        show (Function.update w.peers _ _ _).outstanding = _
        rw [Function.update_self]
    | _ => rfl
  · rw [peers_afterServer_of_ne hc]

theorem update_ne_none {connections : ConnId → Option ConnectionWrapper} {d : ConnId}
    {new : ConnectionWrapper} (h : connections c ≠ none) :
    Function.update connections d (some new) c ≠ none := by
  by_cases heq : c = d
  · subst heq
    simp
  · rwa [Function.update_of_ne heq]

theorem terminated_of_serving {l : ThreadLabel} {t : ServerState}
    (serving : Serving w (.server l)) (running : w.server.terminated = false)
    (step : ThreadStep users w.server l t) : t.terminated = false := by
  cases step with
  | finish fuel tls events out =>
      obtain ⟨⟨u, rfl⟩, -⟩ := serving.2
      exact running
  | _ => exact running

/-- Such a step leaves the session of a connection, unless it answers. -/
theorem session_of_serving {l : ThreadLabel} {t : ServerState} {connection : ConnectionWrapper}
    (serving : Serving w (.server l)) (step : ThreadStep users w.server l t)
    (quiet : l.answerTo c = []) (hlive : t.connections c = some connection) :
    ∃ before, w.server.connections c = some before ∧
      before.toSession = connection.toSession := by
  by_cases hc : l.connection? = some c
  · cases step with
    | accept => exact serving.2.elim
    | disconnect => exact serving.2.elim
    | recv hpc hit hlive' hne hfits =>
        cases hc
        change Function.update w.server.connections _ _ _ = _ at hlive
        rw [Function.update_self] at hlive
        cases hlive
        exact ⟨_, hlive', rfl⟩
    | push hpc hit hlive' hfits hne =>
        cases hc
        change Function.update w.server.connections _ _ _ = _ at hlive
        simp only [ServerState.nextTask, Function.update_self] at hlive
        cases hlive
        exact ⟨_, hlive', (ConnectionWrapper.shift_toSession _ _).symm⟩
    | finish fuel tls events out =>
        cases hc
        obtain ⟨-, headed⟩ := serving.2
        have hlength := headed.flatten_length
        rw [ThreadLabel.answerTo, if_pos rfl] at quiet
        rw [quiet] at hlength
        exact absurd hlength (by decide)
    | _ => cases hc
  · exact ⟨connection, step.connections_of_ne hc ▸ hlive, rfl⟩

theorem Serviceable.step (step : (clientsSystem users).step w l v) (serving : Serving w l)
    (h : Serviceable users w) : Serviceable users v := by
  obtain ⟨running, step⟩ := step
  obtain ⟨l, t, rfl, rfl, carried, thread⟩ := serving.exists_server step
  refine ⟨step.kept h.kept running serving.1, ?_, ?_⟩
  · rw [ClientsState.afterServer_server]
    exact terminated_of_serving serving running thread
  · intro c request connection ty hasked hunread hlive hty
    rw [outstanding_afterServer] at hasked
    rw [unread_afterServer, List.append_eq_nil_iff] at hunread
    rw [ClientsState.afterServer_server] at hlive
    obtain ⟨before, hbefore, hsame⟩ := session_of_serving serving thread hunread.2 hlive
    exact hsame ▸ h.answerable c request before ty hasked hunread.1 hbefore hty

/-- What such a step keeps of a client that waits. -/
structure Waits (c : ConnId) (request : List UInt8) (w : ClientsState) : Prop where
  outstanding : (w.peers c).outstanding = some request
  live : w.server.connections c ≠ none
  whole : ¬ (w.peers c).CutShort

theorem Waits.step {request : List UInt8} (step : (clientsSystem users).step w l v)
    (serving : Serving w l) (h : Waits c request w) : Waits c request v := by
  obtain ⟨running, step⟩ := step
  obtain ⟨l, t, rfl, rfl, carried, thread⟩ := serving.exists_server step
  refine ⟨?_, ?_, fun short => ?_⟩
  · rw [outstanding_afterServer]
    exact h.outstanding
  · rw [ClientsState.afterServer_server]
    cases thread with
    | accept => exact serving.2.elim
    | disconnect => exact serving.2.elim
    | recv => exact update_ne_none h.live
    | push => exact update_ne_none h.live
    | finish fuel tls events out =>
        obtain ⟨⟨u, rfl⟩, -⟩ := serving.2
        exact update_ne_none h.live
    | _ => exact h.live
  · obtain ⟨hne, hlength⟩ := short
    rw [unread_afterServer] at hne hlength
    by_cases hanswer : l.answerTo c = []
    · rw [hanswer, List.append_nil] at hne hlength
      exact h.whole ⟨hne, hlength⟩
    cases l with
    | finish task packetType receiveBuffer before events out =>
        by_cases hc : task.packet.connection = c
        · have := serving.2.2.flatten_length
          rw [List.length_append, ThreadLabel.answerTo, if_pos hc] at hlength
          omega
        · exact hanswer (if_neg hc)
    | _ => exact hanswer rfl

end Serving

/-! ### Until the answer is there -/

section Progress

variable {users : DatabaseHandler} {w v : ClientsState} {c : ConnId} {request : List UInt8}

theorem Serviceable.leadsTo (h : Serviceable users w)
    (reach : LeadsTo (clientsSystem users) Serving w v) : Serviceable users v :=
  reach.invariant (fun _ _ _ now serving step => now.step step serving) h

theorem Waits.leadsTo (h : Waits c request w)
    (reach : LeadsTo (clientsSystem users) Serving w v) : Waits c request v :=
  reach.invariant (fun _ _ _ now serving step => now.step step serving) h

/-- The extraction comes to its end. -/
theorem Serviceable.exists_outside (h : Serviceable users w) :
    ∃ v, LeadsTo (clientsSystem users) Serving w v ∧ Serviceable users v ∧
      ∀ it packetSize, v.server.pc ≠ .extract it packetSize := by
  refine LeadsTo.of_measure (fun w => w.server.extractionLeft) (fun w h inside => ?_) h
  obtain ⟨it, packetSize, hpc⟩ : ∃ it packetSize, w.server.pc = .extract it packetSize := by
    by_contra hnone
    exact inside fun it packetSize hpc => hnone ⟨it, packetSize, hpc⟩
  obtain ⟨c, hit⟩ : ∃ c, w.server.activeConnections[it]? = some c :=
    ⟨_, List.getElem?_eq_getElem (h.kept.listed.extracting it packetSize hpc)⟩
  have stream := h.kept.good.streams c
  rw [extracting_self hpc hit] at stream
  cases hlive : w.server.connections c with
  | none =>
      rw [hlive] at stream
      cases stream.1
  | some connection =>
      rw [extractionLeft_extract hpc hit hlive]
      by_cases hcut : packetSize ≤ connection.bufferPos ∧ packetSize ≠ 0
      · have step : (clientsSystem users).step w
            (.server (.push (w.server.nextTask c connection packetSize))) _ :=
          ⟨h.running, .server trivial (.push hpc hit hlive hcut.1 hcut.2)⟩
        exact ⟨_, _, step, ⟨trivial, trivial⟩, h.step step ⟨trivial, trivial⟩,
          extractionLeft_push hit hcut.1 hcut.2⟩
      · have step : (clientsSystem users).step w (.server .server) _ :=
          ⟨h.running, .server trivial (.extractEnd hpc hit hlive hcut)⟩
        refine ⟨_, _, step, ⟨trivial, trivial⟩, h.step step ⟨trivial, trivial⟩, ?_⟩
        rw [ClientsState.afterServer_server, extractionLeft_receive rfl]
        exact Nat.succ_pos _

/-- Quiet steps of the server thread are steps of the whole. -/
theorem leadsTo_quiet {t : ServerState} (h : LeadsTo (threadSystem users) Quiet w.server t) :
    LeadsTo (clientsSystem users) Serving w { w with server := t } := by
  have follows : ∀ s l t, Quiet s l → (threadSystem users).step s l t →
      (clientsSystem users).step { w with server := s } (.server l) { w with server := t } ∧
        Serving { w with server := s } (.server l) := by
    rintro s l t rfl ⟨running, step⟩
    exact ⟨⟨running, .server trivial step⟩, trivial, trivial⟩
  have whole := h.embed follows
  exact whole

/-- The server thread comes to the start of a pass. -/
structure AtTurn (w : ClientsState) : Prop where
  pc : w.server.pc = .receive 0
  pending : w.server.pendingConnections = []
  completed : w.server.completedPackets = []

theorem Serviceable.exists_turn (h : Serviceable users w) :
    ∃ v, LeadsTo (clientsSystem users) Serving w v ∧ AtTurn v := by
  obtain ⟨u, reach, next, outside⟩ := h.exists_outside
  exact ⟨_, reach.trans (leadsTo_quiet (leadsTo_turn users next.running outside)), rfl, rfl, rfl⟩

/-- What is left to send of a request fits the receive buffer. -/
theorem Serviceable.fits {connection : ConnectionWrapper} (h : Serviceable users w)
    (hlive : w.server.connections c = some connection) (hne : (w.peers c).sent ≠ []) :
    (w.peers c).sent.length ≤ uint16Max - connection.bufferPos := by
  obtain ⟨phase, now⟩ := h.kept.good.phases c
  have stream := now.toServer
  have hstream : w.server.residue c ++ (w.peers c).sent ≠ [] := by simp [hne]
  obtain ⟨asked, rfl⟩ := now.eq_sending hstream
  obtain ⟨⟨-, hmax, -⟩, -, -⟩ := now.isRequest asked rfl
  have hlength := congrArg List.length stream
  rw [residue_of_live hlive, List.length_append, ConnectionWrapper.length_residue] at hlength
  change _ = asked.length at hlength
  omega

/-- All of the request arrives. -/
theorem Serviceable.exists_sent (h : Serviceable users w) (waits : Waits c request w) :
    ∃ v, LeadsTo (clientsSystem users) Serving w v ∧ (v.peers c).sent = [] := by
  obtain ⟨v, reach, turn⟩ := h.exists_turn
  by_cases hsent : (v.peers c).sent = []
  · exact ⟨v, reach, hsent⟩
  have next := h.leadsTo reach
  obtain ⟨connection, hlive⟩ := Option.ne_none_iff_exists'.mp (waits.leadsTo reach).live
  have hmem := next.kept.listed.listed c (hlive ▸ Option.some_ne_none _)
  rw [turn.pending, List.nil_append] at hmem
  obtain ⟨it, hit⟩ := List.mem_iff_getElem?.mp hmem
  have hlt := (List.getElem?_eq_some_iff.mp hit).1
  have polled := leadsTo_receive users next.running (Nat.zero_le it) hlt.le
  rw [← turn.pc] at polled
  have step : (clientsSystem users).step { v with server := { v.server with pc := .receive it } }
      (.server (.recv c (v.peers c).sent)) _ :=
    ⟨next.running, .server (List.prefix_refl _)
      (.recv rfl hit hlive hsent (next.fits hlive hsent))⟩
  refine ⟨_, (reach.trans (leadsTo_quiet polled)).trans (.one step ⟨trivial, trivial⟩), ?_⟩
  show (Function.update v.peers c _ c).sent = []
  rw [Function.update_self]
  exact List.drop_length

end Progress

end ConcurrentTcp
