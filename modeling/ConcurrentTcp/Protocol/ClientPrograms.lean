import ConcurrentTcp.Client.CommandWords
import ConcurrentTcp.Client.TypedRequests
import ConcurrentTcp.Protocol.LockstepClients

/-!
The shipped client waits for its answers (`client/main.cpp`, `client/menu.hpp`).

`clientProgram` is the client over the lines that are typed: each is parsed, its packets are
sent one after another, and a download asks for its chunks in between. In `programsSystem`
any number of such programs run with the threads of the server, and nothing but their own
code keeps them from sending out of turn. `programs_refine_clients` shows that they are the
clients of `clientsSystem`: they never send while they wait, never wait for an answer they
did not ask for, and send nothing but requests.
-/

namespace ConcurrentTcp

open Interaction Transition

/-! ### The program -/

/-- A line in the array of `main`, with what memory and files hold when it is handled. -/
structure CommandLine where
  input : Buffer
  junk : Nat → Nat → Buffer
  readEntireFile : Str → Option (List UInt8)
  chunkJunk : Nat → Buffer
  receiveBuffer : Buffer

/-- The loop of `main`. -/
def clientProgram : List CommandLine → ClientProg Unit
  | [] => .ret ()
  | line :: rest =>
      match parseCommandToPackets line.junk line.readEntireFile line.input with
      | .error e => .fail e
      | .ok none => clientProgram rest
      | .ok (some packets) => do
          sendPackets line.chunkJunk line.receiveBuffer packets
          clientProgram rest

/-! ### Turns -/

/-- The program sends requests only, one at a time, and reads one frame for each. `waiting`
says whether a request is outstanding. -/
def TakesTurns {α : Type} : (waiting : Bool) → ClientProg α → Prop
  | waiting, .ret _ => waiting = false
  | waiting, .fail _ => waiting = false
  | waiting, .call (.send bytes) next => waiting = false ∧ IsRequest bytes ∧
      TakesTurns true (next true) ∧ TakesTurns false (next false)
  | waiting, .call .recv next => waiting = true ∧ ∀ frame, TakesTurns false (next frame)
  | waiting, .call (.openFile _) next => ∀ ans, TakesTurns waiting (next ans)
  | waiting, .call (.write _ _ _) next => ∀ ans, TakesTurns waiting (next ans)
  | waiting, .call (.close _) next => ∀ ans, TakesTurns waiting (next ans)

section Turns

variable {α β : Type} {waiting : Bool}

theorem takesTurns_ret (a : α) : TakesTurns false (.ret a : ClientProg α) := rfl

theorem takesTurns_fail (e : Fault) : TakesTurns false (.fail e : ClientProg α) := rfl

theorem TakesTurns.bind {p : ClientProg α} {f : α → ClientProg β} (first : TakesTurns waiting p)
    (second : ∀ a, TakesTurns false (f a)) : TakesTurns waiting (p >>= f) := by
  induction p generalizing waiting with
  | ret a =>
      obtain rfl : waiting = false := first
      exact second a
  | fail e => exact first
  | call op next ih =>
      cases op with
      | send bytes =>
          obtain ⟨hfree, request, sent, failed⟩ := first
          exact ⟨hfree, request, ih true sent, ih false failed⟩
      | recv => exact ⟨first.1, fun frame => ih frame (first.2 frame)⟩
      | openFile path => exact fun ans => ih ans (first ans)
      | write fd data count => exact fun ans => ih ans (first ans)
      | close fd => exact fun ans => ih ans (first ans)

theorem takesTurns_openFile (path : Str) {f : Int → ClientProg α}
    (h : ∀ file, TakesTurns waiting (f file)) :
    TakesTurns waiting (clientCall (.openFile path) >>= f) := h

theorem takesTurns_write (fd : Int) (data : Buffer) (count : Nat) {f : Int → ClientProg α}
    (h : ∀ written, TakesTurns waiting (f written)) :
    TakesTurns waiting (clientCall (.write fd data count) >>= f) := h

theorem takesTurns_close (fd : Int) {f : Int → ClientProg α}
    (h : ∀ closed, TakesTurns waiting (f closed)) :
    TakesTurns waiting (clientCall (.close fd) >>= f) := h

/-- A request, and what is done with its answer. -/
theorem takesTurns_exchange {bytes : List UInt8} {a : α} {f : List UInt8 → ClientProg α}
    (request : IsRequest bytes) (h : ∀ frame, TakesTurns false (f frame)) :
    TakesTurns false (do
      let sent : Bool ← clientCall (.send bytes)
      if !sent then .ret a
      else
        let frame : List UInt8 ← clientCall .recv
        f frame) :=
  ⟨rfl, request, ⟨rfl, h⟩, rfl⟩

theorem takesTurns_downloadChunks (junk : Nat → Buffer) (file : Int) (receiveBuffer : Buffer)
    (chunk left : Nat) : TakesTurns false (downloadChunks junk file receiveBuffer chunk left) := by
  induction left generalizing receiveBuffer chunk with
  | zero => rfl
  | succ left ih =>
      rw [downloadChunks]
      refine takesTurns_exchange (isRequest_downloadChunk _ _) fun frame => ?_
      exact takesTurns_write _ _ _ fun _ => ih _ _

theorem takesTurns_handleFileOpenedResp (junk : Nat → Buffer) (p : Buffer) :
    TakesTurns false (handleFileOpenedResp junk p) := by
  unfold handleFileOpenedResp
  generalize PacketDownloadedFileInfo.decodeChunks p = chunks
  cases PacketDownloadedFileInfo.decodeFileName p with
  | none => exact takesTurns_fail _
  | some fileName =>
      refine takesTurns_openFile fileName fun file => ?_
      refine TakesTurns.bind (takesTurns_downloadChunks junk file _ _ _) fun _ => ?_
      exact takesTurns_close file fun _ => takesTurns_ret ()

theorem takesTurns_handleResponsePacket (junk : Nat → Buffer) (buffer : Buffer) :
    TakesTurns false (handleResponsePacket junk buffer) := by
  unfold handleResponsePacket
  split
  · exact TakesTurns.bind (takesTurns_handleFileOpenedResp junk buffer) fun _ => takesTurns_ret _
  all_goals exact takesTurns_ret _

theorem takesTurns_sendPackets (junk : Nat → Buffer) (receiveBuffer : Buffer)
    {packets : List Buffer} (requests : ∀ p ∈ packets, IsRequest p.frame) :
    TakesTurns false (sendPackets junk receiveBuffer packets) := by
  induction packets generalizing receiveBuffer with
  | nil => rfl
  | cons packet rest ih =>
      obtain ⟨here, later⟩ := List.forall_mem_cons.mp requests
      rw [sendPackets]
      refine takesTurns_exchange here fun frame => ?_
      refine TakesTurns.bind (takesTurns_handleResponsePacket ..) fun stop => ?_
      split
      · exact rfl
      · exact ih _ later

theorem takesTurns_clientProgram (lines : List CommandLine) :
    TakesTurns false (clientProgram lines) := by
  induction lines with
  | nil => rfl
  | cons line rest ih =>
      rw [clientProgram]
      split
      · rfl
      · exact ih
      · rename_i packets hparsed
        have requests := isRequest_of_parsed line.junk line.readEntireFile line.input _ hparsed
        exact TakesTurns.bind (takesTurns_sendPackets _ _ requests) fun _ => ih

end Turns

/-! ### Programs with the server -/

/-- The server, its clients, and what each client still has to do. -/
structure ProgramsState extends ClientsState where
  programs : ConnId → ClientProg Unit

inductive ProgramsLabel where
  | client (l : ClientsLabel)
  | file (c : ConnId) (e : ClientEvent)

def ProgramsLabel.visible : ProgramsLabel → Option ClientsLabel
  | .client l => some l
  | .file _ _ => none

/-- The program of a client goes on. -/
def ProgramsState.goOn (w : ProgramsState) (c : ConnId) (v : ClientsState) (p : ClientProg Unit) :
    ProgramsState :=
  { v with programs := Function.update w.programs c p }

/-- A client makes the next call of its program; `recv` returns when the frame is there. A
client can be ended at any time. -/
inductive ProgramsStep (users : DatabaseHandler) :
    ProgramsState → ProgramsLabel → ProgramsState → Prop where
  | send {w : ProgramsState} {c : ConnId} {bytes : List UInt8} {next : Bool → ClientProg Unit} :
      (w.peers c).closed = false → w.programs c = .call (.send bytes) next →
      ProgramsStep users w (.client (.request c bytes))
        (w.goOn c (w.request c bytes) (next true))
  | sendFailed {w : ProgramsState} {c : ConnId} {bytes : List UInt8}
      {next : Bool → ClientProg Unit} :
      (w.peers c).closed = false → w.programs c = .call (.send bytes) next →
      ProgramsStep users w (.file c ⟨.send bytes, false⟩) (w.goOn c w.toClientsState (next false))
  | recv {w : ProgramsState} {c : ConnId} {frame rest : List UInt8}
      {next : List UInt8 → ClientProg Unit} :
      (w.peers c).closed = false → w.programs c = .call .recv next →
      max sizeofPacketHeader (declaredSize (w.peers c).unread) ≤ (w.peers c).unread.length →
      recvFromServer (w.peers c).unread = (frame, rest) →
      ProgramsStep users w (.client (.response c frame))
        (w.goOn c (w.response c ((w.peers c).outstanding.getD []) frame rest) (next frame))
  /-- A call on the files of the client. -/
  | file {w : ProgramsState} {c : ConnId} {op : ClientCall} {next : op.Answer → ClientProg Unit}
      {ans : op.Answer} : (w.peers c).closed = false → (∀ bytes, op ≠ .send bytes) → op ≠ .recv →
      w.programs c = .call op next →
      ProgramsStep users w (.file c ⟨op, ans⟩) (w.goOn c w.toClientsState (next ans))
  | close {w : ProgramsState} {c : ConnId} : (w.peers c).closed = false →
      ProgramsStep users w (.client (.close c)) { w.close c with programs := w.programs }
  | server {w : ProgramsState} {l : ThreadLabel} {t : ServerState} :
      Carried w.toClientsState l → ThreadStep users w.server l t →
      ProgramsStep users w (.client (.server l)) { w.afterServer t l with programs := w.programs }

/-- The shipped client on every connection, over any lines. -/
def ProgramsState.initial (lines : ConnId → List CommandLine) : ProgramsState :=
  { ClientsState.initial with programs := fun c => clientProgram (lines c) }

def programsSystem (users : DatabaseHandler) (lines : ConnId → List CommandLine) :
    System ProgramsState ProgramsLabel where
  init := fun w => w = .initial lines
  step := fun w l v => w.server.terminated = false ∧ ProgramsStep users w l v

section Programs

variable {users : DatabaseHandler} {w v : ProgramsState} {l : ProgramsLabel}

/-- Every client is where its program is: it waits when a request is outstanding. -/
def InTurn (w : ProgramsState) : Prop :=
  ∀ c, TakesTurns (w.peers c).outstanding.isSome (w.programs c)

/-- The server does not change what a client waits for. -/
theorem afterServer_outstanding (w : ClientsState) (t : ServerState) (l : ThreadLabel)
    (c : ConnId) : ((w.afterServer t l).peers c).outstanding = (w.peers c).outstanding := by
  have one : ∀ (d : ConnId) (p : Peer), p.outstanding = (w.peers d).outstanding →
      (Function.update w.peers d p c).outstanding = (w.peers c).outstanding := by
    intro d p hp
    by_cases hc : c = d
    · subst hc
      rw [Function.update_self, hp]
    · rw [Function.update_of_ne hc]
  cases l with
  | recv d bytes => exact one d _ rfl
  | finish task packetType receiveBuffer before events out => exact one _ _ rfl
  | _ => rfl

/-- A step of one client's program. -/
theorem InTurn.goOn (h : InTurn w) {c : ConnId} {u : ClientsState} {p : ClientProg Unit}
    (others : ∀ d ≠ c, (u.peers d).outstanding = (w.peers d).outstanding)
    (here : TakesTurns (u.peers c).outstanding.isSome p) : InTurn (w.goOn c u p) := by
  intro d
  show TakesTurns (u.peers d).outstanding.isSome (Function.update w.programs c p d)
  by_cases hd : d = c
  · subst hd
    rwa [Function.update_self]
  · rw [Function.update_of_ne hd, others d hd]
    exact h d

theorem setPeer_outstanding {w : ClientsState} {c : ConnId} {p : Peer} (d : ConnId) (hd : d ≠ c) :
    ((w.setPeer c p).peers d).outstanding = (w.peers d).outstanding :=
  congrArg Peer.outstanding (Function.update_of_ne hd ..)

/-- A program about to send does not wait. -/
theorem InTurn.send (h : InTurn w) {c : ConnId} {bytes : List UInt8}
    {next : Bool → ClientProg Unit} (hp : w.programs c = .call (.send bytes) next) :
    (w.peers c).outstanding = none ∧ IsRequest bytes ∧ TakesTurns true (next true) ∧
      TakesTurns false (next false) := by
  have here := h c
  rw [hp] at here
  exact ⟨Option.not_isSome_iff_eq_none.mp (by simpa using here.1), here.2⟩

/-- A program about to read waits. -/
theorem InTurn.recv (h : InTurn w) {c : ConnId} {next : List UInt8 → ClientProg Unit}
    (hp : w.programs c = .call .recv next) :
    (∃ asked, (w.peers c).outstanding = some asked) ∧ ∀ frame, TakesTurns false (next frame) := by
  have here := h c
  rw [hp] at here
  exact ⟨Option.isSome_iff_exists.mp here.1, here.2⟩

theorem ProgramsStep.inTurn (step : ProgramsStep users w l v) (h : InTurn w) : InTurn v := by
  cases step with
  | send hopen hp =>
      rename_i c bytes next
      refine h.goOn setPeer_outstanding ?_
      rw [ClientsState.request, ClientsState.setPeer_self]
      exact (h.send hp).2.2.1
  | sendFailed hopen hp =>
      obtain ⟨hfree, -, -, failed⟩ := h.send hp
      refine h.goOn (fun _ _ => rfl) ?_
      rw [hfree]
      exact failed
  | recv hopen hp hwhole hrecv =>
      refine h.goOn setPeer_outstanding ?_
      rw [ClientsState.response, ClientsState.setPeer_self]
      exact (h.recv hp).2 _
  | file hopen hsend hrecv hp =>
      rename_i c op next ans
      refine h.goOn (fun _ _ => rfl) ?_
      have here := h c
      rw [hp] at here
      cases op with
      | send bytes => exact absurd rfl (hsend bytes)
      | recv => exact absurd rfl hrecv
      | openFile path => exact here ans
      | write fd data count => exact here ans
      | close fd => exact here ans
  | close hopen =>
      rename_i c
      intro d
      by_cases hd : d = c
      · subst hd
        show TakesTurns (((w.setPeer d _).peers d).outstanding.isSome) (w.programs d)
        rw [ClientsState.setPeer_self]
        exact h d
      · show TakesTurns (((w.setPeer c _).peers d).outstanding.isSome) (w.programs d)
        rw [setPeer_outstanding d hd]
        exact h d
  | server carried step =>
      intro d
      show TakesTurns (((w.afterServer _ _).peers d).outstanding.isSome) (w.programs d)
      rw [afterServer_outstanding]
      exact h d

/-- What the programs do is what clients may do. -/
theorem ProgramsStep.client {l' : ClientsLabel} (step : ProgramsStep users w l v) (h : InTurn w)
    (seen : l.visible = some l') : ClientsStep users w.toClientsState l' v.toClientsState := by
  cases step with
  | send hopen hp =>
      cases seen
      obtain ⟨hfree, request, -⟩ := h.send hp
      exact .request hopen hfree request
  | recv hopen hp hwhole hrecv =>
      cases seen
      obtain ⟨⟨asked, hasked⟩, -⟩ := h.recv hp
      rw [hasked]
      exact .response hopen hasked hwhole hrecv
  | close hopen =>
      cases seen
      exact .close hopen
  | server carried step =>
      cases seen
      exact .server carried step
  | sendFailed => cases seen
  | file => cases seen

theorem ProgramsStep.hidden (step : ProgramsStep users w l v) (unseen : l.visible = none) :
    v.toClientsState = w.toClientsState := by
  cases step with
  | sendFailed => rfl
  | file => rfl
  | _ => cases unseen

end Programs

/-- Shipped clients on any connections, over any lines and whatever their memory and files hold,
are clients that send requests only and wait for each answer: without the calls on their files,
a run of them is one of `clientsSystem`. `recv_from_server` is one step here, and returns when
the whole response is there: headers that arrive in pieces, and a `recv` that fails or ends, are
not in these runs. -/
theorem programs_refine_clients {users : DatabaseHandler} {lines : ConnId → List CommandLine}
    {w : ProgramsState} {moves : List (Move ProgramsState ProgramsLabel)}
    (run : Run (programsSystem users lines) (.initial lines) moves w) :
    Run (clientsSystem users) .initial
      (projection ProgramsState.toClientsState ProgramsLabel.visible moves) w.toClientsState := by
  have keeps : ∀ w l v, InTurn w → (programsSystem users lines).step w l v → InTurn v :=
    fun _ _ _ h step => step.2.inTurn h
  have hidden : ∀ w l v, InTurn w → (programsSystem users lines).step w l v → l.visible = none →
      v.toClientsState = w.toClientsState := fun _ _ _ _ step => step.2.hidden
  have seen : ∀ w l v l', InTurn w → (programsSystem users lines).step w l v →
      l.visible = some l' →
      (clientsSystem users).step w.toClientsState l' v.toClientsState :=
    fun _ _ _ _ h step hl => ⟨step.1, step.2.client h hl⟩
  exact run.project keeps hidden seen fun c => takesTurns_clientProgram (lines c)

/-- A ping that is typed. -/
def pingLine : CommandLine where
  input := lineBuffer (ascii "ping")
  junk := fun _ _ => Buffer.zero
  readEntireFile := fun _ => none
  chunkJunk := fun _ => Buffer.zero
  receiveBuffer := Buffer.zero

theorem clientProgram_pingLine :
    clientProgram [pingLine] = sendPackets (fun _ => Buffer.zero) Buffer.zero
      [PacketController.createPingPacket Buffer.zero] >>= fun _ => .ret () := by
  have holds : HoldsLine (lineBuffer (ascii "ping")) (ascii "ping") :=
    holdsLine_lineBuffer (by decide) (by decide)
  have parsed : parseCommandToPackets pingLine.junk pingLine.readEntireFile pingLine.input =
      .ok (some [PacketController.createPingPacket Buffer.zero]) := by
    show parseCommandToPackets _ _ (lineBuffer (ascii "ping")) = _
    rw [parse_command (C := .ping) holds (by decide) (by decide)]
    rfl
  rw [clientProgram, parsed]
  rfl

/-- A client sends its ping, and the server accepts the connection. -/
theorem ping_program_refines :
    ∃ w moves frame, Run (programsSystem exampleUsers fun _ => [pingLine])
        (.initial fun _ => [pingLine]) moves w ∧
      (w.peers 0).outstanding = some frame ∧
      Run (clientsSystem exampleUsers) .initial
        (projection ProgramsState.toClientsState ProgramsLabel.visible moves) w.toClientsState := by
  have asks : (ProgramsState.initial fun _ => [pingLine]).programs 0 = .call (.send _) _ :=
    clientProgram_pingLine
  have sent := @ProgramsStep.send exampleUsers (.initial fun _ => [pingLine]) 0 _ _ rfl asks
  have run : Run (programsSystem exampleUsers fun _ => [pingLine])
      (.initial fun _ => [pingLine]) _ _ := .cons ⟨rfl, sent⟩ (.cons
    ⟨rfl, @ProgramsStep.server exampleUsers _ (.accept 0 5) _ trivial (.accept rfl rfl)⟩ (.nil _))
  exact ⟨_, _, _, run, rfl, programs_refine_clients run⟩

end ConcurrentTcp
