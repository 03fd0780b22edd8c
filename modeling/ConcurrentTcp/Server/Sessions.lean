import ConcurrentTcp.Base.Transition
import ConcurrentTcp.Server.ClientController
import Mathlib.Logic.Function.Basic

/-!
Sessions: what handlers and disconnects do to logins.

`PacketEffect` says once what one dispatched packet can do to the session of its
connection and to the global state; `packet_effect` derives it from the handlers.
`sessionSystem` is the transition system whose atomic steps are the acceptance
of a connection, the complete handling of one packet, and the destruction of a
connection. The packet type and the receive buffer of a step are arbitrary,
since the server thread may have changed the receive buffer.
-/

namespace ConcurrentTcp

open Interaction Transition

/-- Every normal end of the program satisfies `Q`, whatever the environment
answers. -/
abbrev Ends {α : Type} (Q : α → Prop) (p : ServerProg α) : Prop :=
  Contract (fun _ => True) (fun _ => True) (onReturn Q) p

/-- The login of a connection and the admin flag are as before. -/
structure SameLogin (s t : HandlerState) : Prop where
  id : t.session.id = s.session.id
  currentDir : t.session.currentDir = s.session.currentDir
  isAdmin : t.session.isAdmin = s.session.isAdmin
  bAdminConnected : t.g.bAdminConnected = s.g.bAdminConnected

theorem SameLogin.refl (s : HandlerState) : SameLogin s s := ⟨rfl, rfl, rfl, rfl⟩

/-! ### Handlers that keep the login -/

section Keeps

variable {base s : HandlerState}

theorem ends_respond {p : Buffer} {length : Nat} (h : SameLogin base s) :
    Ends (SameLogin base) (s.respond p length) :=
  fun _ _ => ⟨trivial, h.id, h.currentDir, h.isAdmin, h.bAdminConnected⟩

theorem ends_sendSampleResp {t : PacketType} (h : SameLogin base s) :
    Ends (SameLogin base) (sendSampleResp s t) :=
  ends_respond h

theorem ends_reqServerStatus (s : HandlerState) : Ends (SameLogin s) (reqServerStatus s) := by
  unfold reqServerStatus
  split
  · exact ends_sendSampleResp (.refl s)
  · exact .after fun _ => ends_respond (.refl s)

theorem ends_reqConnectionsInfo (s : HandlerState) :
    Ends (SameLogin s) (reqConnectionsInfo s) := by
  unfold reqConnectionsInfo
  split
  · exact ends_sendSampleResp (.refl s)
  · exact .after fun _ => ends_respond (.refl s)

theorem ends_reqGetSettings (s : HandlerState) : Ends (SameLogin s) (reqGetSettings s) := by
  unfold reqGetSettings
  split
  · exact ends_sendSampleResp (.refl s)
  · exact ends_respond (.refl s)

theorem parseSetingPacketAndSet_bAdminConnected (p : SetSettingPacket) (g : GlobalState) :
    (parseSetingPacketAndSet p g).bAdminConnected = g.bAdminConnected := by
  unfold parseSetingPacketAndSet
  split <;> rfl

theorem ends_reqSetSetting (receiveBuffer : Buffer) (s : HandlerState) :
    Ends (SameLogin s) (reqSetSetting receiveBuffer s) := by
  unfold reqSetSetting
  split
  · exact ends_sendSampleResp (.refl s)
  · exact ends_sendSampleResp ⟨rfl, rfl, rfl, parseSetingPacketAndSet_bAdminConnected _ _⟩

theorem ends_reqClean (s : HandlerState) : Ends (SameLogin s) (reqClean s) := by
  unfold reqClean
  split
  · exact ends_sendSampleResp (.refl s)
  · refine .after fun entries => .after fun entries => .after fun cleaned => ?_
    exact ends_sendSampleResp (.refl s)

theorem ends_reqRemovePath (cb : ConnectionBuffer) (s : HandlerState) :
    Ends (SameLogin s) (reqRemovePath cb s) := by
  refine .after fun name => ?_
  split
  · exact ends_sendSampleResp (.refl s)
  · refine .after fun file => ?_
    split
    · exact ends_sendSampleResp (.refl s)
    · exact .after fun _ => ends_sendSampleResp (.refl s)

theorem ends_reqMkdir (cb : ConnectionBuffer) (s : HandlerState) :
    Ends (SameLogin s) (reqMkdir cb s) := by
  refine .after fun name => ?_
  split
  · exact ends_sendSampleResp (.refl s)
  · exact .after fun _ => ends_sendSampleResp (.refl s)

theorem ends_reqFileList (s : HandlerState) : Ends (SameLogin s) (reqFileList s) :=
  .after fun _ => ends_respond (.refl s)

theorem ends_reqFileOpen (cb : ConnectionBuffer) (s : HandlerState) :
    Ends (SameLogin s) (reqFileOpen cb s) := by
  refine .after fun name => ?_
  split
  · exact ends_sendSampleResp (.refl s)
  · refine .after fun filePath => .after fun (file : Int) => ?_
    split
    · exact ends_sendSampleResp (.refl s)
    · refine .after fun size => ?_
      split
      · exact ends_sendSampleResp (.refl s)
      · exact ends_respond ⟨rfl, rfl, rfl, rfl⟩

theorem ends_reqFileDownloadChunk (cb : ConnectionBuffer) (s : HandlerState) :
    Ends (SameLogin s) (reqFileDownloadChunk cb s) := by
  refine .after fun (output, p) => ?_
  dsimp only
  split
  · have cleared : SameLogin s
        { s with session := { s.session with downloadFd := 0 }, tls := p } := ⟨rfl, rfl, rfl, rfl⟩
    exact .seq (ends_sendSampleResp cleared) fun t ht => ends_respond ht
  · exact ends_respond ⟨rfl, rfl, rfl, rfl⟩

theorem ends_reqFileClose (s : HandlerState) : Ends (SameLogin s) (reqFileClose s) := by
  refine .after fun (closed : Int) => ?_
  split
  · exact .after fun _ => ends_sendSampleResp ⟨rfl, rfl, rfl, rfl⟩
  · exact ends_sendSampleResp (.refl s)

theorem ends_reqFileTransferStart (cb : ConnectionBuffer) (s : HandlerState) :
    Ends (SameLogin s) (reqFileTransferStart cb s) := by
  refine .after fun name => ?_
  split
  · exact ends_sendSampleResp (.refl s)
  · exact .after fun _ => ends_sendSampleResp ⟨rfl, rfl, rfl, rfl⟩

theorem ends_writeFileData (answer : PacketType) (cb : ConnectionBuffer) (s : HandlerState) :
    Ends (SameLogin s) (writeFileData answer cb s) :=
  .after fun _ => ends_sendSampleResp (.refl s)

theorem ends_transferPath (operation : Str → Str → ServerProg Bool) (cb : ConnectionBuffer)
    (s : HandlerState) : Ends (SameLogin s) (transferPath operation cb s) := by
  refine .after fun inPacket => .after fun _ => .after fun userDirPath => .after fun _ =>
    .after fun currentDirPath => .after fun _ => .after fun source => .after fun _ =>
    .after fun destination => .after fun sourceInside => ?_
  split
  · exact ends_sendSampleResp (.refl s)
  · refine .after fun destinationInside => ?_
    split
    · exact ends_sendSampleResp (.refl s)
    · exact .after fun _ => ends_sendSampleResp (.refl s)

theorem ends_reqCompress (fuel : Nat) (cb : ConnectionBuffer) (s : HandlerState) :
    Ends (SameLogin s) (reqCompress fuel cb s) := by
  refine .after fun archiveName => .after fun files => ?_
  cases files with
  | none => exact ends_sendSampleResp (.refl s)
  | some files => exact .after fun _ => ends_sendSampleResp (.refl s)

end Keeps

/-- Every slot but those of login, logout and change directory keeps the login. -/
theorem handlers_keep {users : DatabaseHandler} {fuel : Nat} {receiveBuffer : Buffer}
    {cb : ConnectionBuffer} {ty : PacketType} {handler : HandlerState → ServerProg HandlerState}
    (hlogin : ty ≠ .reqLogin) (hlogout : ty ≠ .reqLogout)
    (hcd : ty ≠ .reqChangeWorkingDirectory)
    (h : handlers users fuel receiveBuffer cb ty = some handler) (s : HandlerState) :
    Ends (SameLogin s) (handler s) := by
  cases ty, handler, h using handlers_cases with
  | reqServerStatus => exact ends_reqServerStatus s
  | reqConnectionsInfo => exact ends_reqConnectionsInfo s
  | reqCrcVerify => exact SameLogin.refl s
  | reqLogout => exact absurd rfl hlogout
  | reqCurrentDirectory => exact ends_respond (.refl s)
  | reqRemovePath => exact ends_reqRemovePath cb s
  | reqMkdir => exact ends_reqMkdir cb s
  | reqChangeWorkingDirectory => exact absurd rfl hcd
  | reqFileOpen => exact ends_reqFileOpen cb s
  | reqFileDownloadChunk => exact ends_reqFileDownloadChunk cb s
  | reqFileClose => exact ends_reqFileClose s
  | reqMoveFile => exact ends_transferPath _ cb s
  | reqCopyFile => exact ends_transferPath _ cb s
  | reqPing => exact ends_sendSampleResp (.refl s)
  | reqGetCurrentUser => exact ends_respond (.refl s)
  | reqFileTransferStart => exact ends_reqFileTransferStart cb s
  | reqFileTransferChunk => exact ends_writeFileData _ cb s
  | reqFileTransferEnd => exact ends_writeFileData _ cb s
  | reqGetSettings => exact ends_reqGetSettings s
  | reqSetSetting => exact ends_reqSetSetting receiveBuffer s
  | reqFileList => exact ends_reqFileList s
  | reqLogin => exact absurd rfl hlogin
  | reqCompress => exact ends_reqCompress fuel cb s
  | reqClean => exact ends_reqClean s

/-! ### What one packet does -/

/-- The outcome of a login request, apart from the response buffer. -/
def HandlerState.afterLogin (s : HandlerState) (users : DatabaseHandler) (p : PacketLogin) :
    HandlerState :=
  if users.login p.username p.password then
    let s := { s with session := s.session.loggedIn users p.username }
    if users.isAdmin p.username then
      if s.g.bAdminConnected then { s with session := s.session.rejected } else s.registerAdmin
    else s
  else s

/-- An admin who leaves resets the flag. -/
def GlobalState.afterLeave (g : GlobalState) (session : Session) : GlobalState :=
  if session.isAdmin then { g with bAdminConnected := false } else g

/-- The outcome of a logout, apart from the response buffer. -/
def HandlerState.afterLogout (s : HandlerState) : HandlerState :=
  { s with g := s.g.afterLeave s.session, session := { s.session with id := [] } }

/-- What a dispatched packet of a given type can do to logins. -/
inductive PacketEffect (users : DatabaseHandler) (cb : ConnectionBuffer) (s t : HandlerState) :
    PacketType → Prop where
  | login (p : PacketLogin) : PacketLogin.decode cb.buffer = some p →
      SameLogin (s.afterLogin users p) t → PacketEffect users cb s t .reqLogin
  | logout : SameLogin s.afterLogout t → PacketEffect users cb s t .reqLogout
  | changeDirectory (path newDir : Str) (events : List ServerEvent) :
      s.session.id ≠ [] → Exec (cdCommand s.session.currentDir path) events (.ok newDir) →
      newDir ≠ [] → SameLogin { s with session := { s.session with currentDir := newDir } } t →
      PacketEffect users cb s t .reqChangeWorkingDirectory
  | keep {ty : PacketType} : ty ≠ .reqLogin → ty ≠ .reqLogout → SameLogin s t →
      PacketEffect users cb s t ty

section Effect

variable {users : DatabaseHandler} {fuel : Nat} {receiveBuffer : Buffer} {cb : ConnectionBuffer}
  {s t : HandlerState}

theorem ends_reqLogout (s : HandlerState) : Ends (SameLogin s.afterLogout) (reqLogout s) :=
  ends_sendSampleResp ⟨rfl, rfl, rfl, rfl⟩

/-- A login ends as `afterLogin` says for the credentials of its packet. -/
theorem ends_reqLogin (users : DatabaseHandler) (cb : ConnectionBuffer) (s : HandlerState) :
    Ends (fun t => ∃ p, PacketLogin.decode cb.buffer = some p ∧ SameLogin (s.afterLogin users p) t)
      (reqLogin users cb s) := by
  unfold reqLogin
  cases hdecode : PacketLogin.decode cb.buffer with
  | none => trivial
  | some p =>
      suffices h : Ends (SameLogin (s.afterLogin users p)) (reqLogin users cb s) by
        unfold reqLogin at h
        rw [hdecode] at h
        exact h.mono (fun _ _ => trivial) (fun _ _ _ => trivial) fun out hout => by
          cases out with
          | ok t => exact ⟨p, rfl, hout⟩
          | error e => trivial
      unfold reqLogin HandlerState.afterLogin
      rw [hdecode]
      simp only [orUndefined, Prog.ret_bind]
      split
      · refine .after fun _ => ?_
        split
        · split
          · exact ends_sendSampleResp (.refl _)
          · exact ends_respond (.refl _)
        · exact ends_respond (.refl _)
      · exact ends_sendSampleResp (.refl s)

theorem exec_reqChangeWorkingDirectory {events : List ServerEvent}
    (run : Exec (reqChangeWorkingDirectory cb s) events (.ok t)) :
    (∃ path newDir moves, Exec (cdCommand s.session.currentDir path) moves (.ok newDir) ∧
      newDir ≠ [] ∧ SameLogin { s with session := { s.session with currentDir := newDir } } t) ∨
    SameLogin s t := by
  obtain ⟨path, _, _, _, run, -⟩ := run.bind_inv
  obtain ⟨newDir, moves, _, cd, run, -⟩ := run.bind_inv
  by_cases hempty : newDir = []
  · rw [if_pos hempty] at run
    exact .inr ((ends_sendSampleResp (.refl s)).returns run)
  · rw [if_neg hempty] at run
    exact .inl ⟨path, newDir, moves, cd, hempty, (ends_sendSampleResp (.refl _)).returns run⟩

/-- The inversion of a dispatch that returns. -/
theorem packet_effect {ty : PacketType} {events : List ServerEvent}
    (run : Exec (dispatch users fuel ty receiveBuffer cb s) events (.ok t)) :
    PacketEffect users cb s t ty := by
  unfold dispatch at run
  split at run
  · rename_i unauthorized
    refine .keep ?_ ?_ ((ends_sendSampleResp (.refl s)).returns run)
    · rintro rfl
      simp [PacketType.needsNoLogin] at unauthorized
    · rintro rfl
      simp [PacketType.needsNoLogin] at unauthorized
  · rename_i authorized
    split at run
    · rename_i handler hhandler
      by_cases hlogin : ty = .reqLogin
      · subst hlogin
        cases hhandler
        obtain ⟨p, hp, effect⟩ := (ends_reqLogin users cb s).returns run
        exact .login p hp effect
      by_cases hlogout : ty = .reqLogout
      · subst hlogout
        cases hhandler
        exact .logout ((ends_reqLogout s).returns run)
      by_cases hcd : ty = .reqChangeWorkingDirectory
      · subst hcd
        cases hhandler
        have hid : s.session.id ≠ [] := by simpa [PacketType.needsNoLogin] using authorized
        rcases exec_reqChangeWorkingDirectory run with ⟨path, newDir, moves, cd, hne, effect⟩ | same
        · exact .changeDirectory path newDir moves hid cd hne effect
        · exact .keep hlogin hlogout same
      · exact .keep hlogin hlogout ((handlers_keep hlogin hlogout hcd hhandler s).returns run)
    · cases run

end Effect

/-! ### The system of sessions -/

/-- `~ConnectionWrapper`: a path of 255 bytes does not fit its array. -/
def destroyConnection (session : Session) (g : GlobalState) : ServerProg GlobalState := do
  let g := if session.isAdmin then { g with bAdminConnected := false } else g
  let _ ← sys (.close session.fd)
  let _ ← sys (.close session.downloadFd)
  let dirPath := serverFilesDir ++ slash :: session.id
  let dirPath ← orUndefined (if dirPath.length < 255 then some dirPath else none)
  let _ ← sys (.opendir dirPath)
  .ret g

theorem exec_destroyConnection {session : Session} {g g' : GlobalState} {events : List ServerEvent}
    (run : Exec (destroyConnection session g) events (.ok g')) : g' = g.afterLeave session := by
  have ends : Ends (fun g' => g' = g.afterLeave session) (destroyConnection session g) :=
    .after fun _ => .after fun _ => .after fun _ => .after fun _ => rfl
  exact ends.returns run

/-- The live connections and the global state. -/
structure SessionState where
  live : ConnId → Option Session
  g : GlobalState

inductive SessionLabel where
  | accept (c : ConnId) (socketFd : Int)
  | packet (c : ConnId) (packetType : PacketType) (receiveBuffer : Buffer) (cb : ConnectionBuffer)
  | disconnect (c : ConnId)

/-- Put a connection's session back. -/
def SessionState.set (w : SessionState) (c : ConnId) (session : Option Session)
    (g : GlobalState) : SessionState :=
  { live := Function.update w.live c session, g }

/-- Each handler execution is one step; one that faults takes no step. -/
inductive SessionStep (users : DatabaseHandler) :
    SessionState → SessionLabel → SessionState → Prop where
  | accept {w : SessionState} {c : ConnId} {socketFd : Int} : w.live c = none →
      SessionStep users w (.accept c socketFd) (w.set c (some (.accepted socketFd)) w.g)
  | packet {w : SessionState} {c : ConnId} {ty : PacketType} {receiveBuffer : Buffer}
      {cb : ConnectionBuffer} {session : Session} (fuel : Nat) (tls : Buffer)
      (events : List ServerEvent) (t : HandlerState) : w.live c = some session →
      Exec (dispatch users fuel ty receiveBuffer cb ⟨session, w.g, tls⟩) events (.ok t) →
      SessionStep users w (.packet c ty receiveBuffer cb) (w.set c (some t.session) t.g)
  | disconnect {w : SessionState} {c : ConnId} {session : Session} {g : GlobalState}
      (events : List ServerEvent) : w.live c = some session →
      Exec (destroyConnection session w.g) events (.ok g) →
      SessionStep users w (.disconnect c) (w.set c none g)

def SessionState.initial : SessionState := { live := fun _ => none, g := .initial }

/-- Sessions over a fixed user database. -/
def sessionSystem (users : DatabaseHandler) : System SessionState SessionLabel where
  init := fun w => w = .initial
  step := SessionStep users

theorem SessionState.set_live_self (w : SessionState) (c : ConnId) (session : Option Session)
    (g : GlobalState) : (w.set c session g).live c = session :=
  Function.update_self ..

theorem SessionState.set_live_of_ne (w : SessionState) {c d : ConnId} (session : Option Session)
    (g : GlobalState) (h : d ≠ c) : (w.set c session g).live d = w.live d :=
  Function.update_of_ne h ..

/-- Changing one connection keeps what holds of every session exactly when it
holds of the new one. -/
theorem SessionState.forall_live_set_iff {I : Session → Prop} {w : SessionState} {c : ConnId}
    {new : Option Session} {g : GlobalState}
    (now : ∀ d session, w.live d = some session → I session) :
    (∀ d session, (w.set c new g).live d = some session → I session) ↔
      ∀ session, new = some session → I session := by
  constructor
  · intro all session hnew
    exact all c session (by rw [set_live_self, hnew])
  · intro here d session hlive
    by_cases hd : d = c
    · subst hd
      rw [set_live_self] at hlive
      exact here session hlive
    · rw [set_live_of_ne _ _ _ hd] at hlive
      exact now d session hlive

/-- An invariant of every live session holds after a step when it holds of an
accepted session and each packet keeps it. -/
theorem SessionStep.forall_live {users : DatabaseHandler} {I : Session → Prop}
    {w v : SessionState} {l : SessionLabel} (step : SessionStep users w l v)
    (now : ∀ c session, w.live c = some session → I session)
    (accepted : ∀ socketFd, I (.accepted socketFd))
    (packet : ∀ c ty receiveBuffer cb session tls t, l = .packet c ty receiveBuffer cb →
      w.live c = some session → PacketEffect users cb ⟨session, w.g, tls⟩ t ty → I session →
      I t.session) :
    ∀ c session, v.live c = some session → I session := by
  cases step with
  | accept hfree =>
      apply (SessionState.forall_live_set_iff now).mpr
      rintro session ⟨⟩
      exact accepted _
  | packet fuel tls events t hc run =>
      apply (SessionState.forall_live_set_iff now).mpr
      rintro session ⟨⟩
      exact packet _ _ _ _ _ tls t rfl hc (packet_effect run) (now _ _ hc)
  | disconnect events hc run =>
      apply (SessionState.forall_live_set_iff now).mpr
      rintro session ⟨⟩

/-! ### Steps that are always possible -/

theorem exec_respond (s : HandlerState) (p : Buffer) (length : Nat) :
    Exec (s.respond p length) [⟨.send (p.read 0 length), ()⟩] (.ok { s with tls := p }) := by
  have sent : (s.respond p length) =
      (.call (.send (p.read 0 length)) fun _ => .ret { s with tls := p } :
        ServerProg HandlerState) := rfl
  rw [sent]
  exact Exec.call_iff.mpr ⟨(), [], rfl, .ret _⟩

/-- A login request with terminated names is served. -/
theorem exec_reqLogin (users : DatabaseHandler) {cb : ConnectionBuffer} {p : PacketLogin}
    (hdecode : PacketLogin.decode cb.buffer = some p) (s : HandlerState) :
    ∃ events t, Exec (reqLogin users cb s) events (.ok t) ∧
      t.session = (s.afterLogin users p).session ∧ t.g = (s.afterLogin users p).g := by
  unfold reqLogin HandlerState.afterLogin
  rw [hdecode]
  simp only [orUndefined, Prog.ret_bind]
  split
  · split
    · split
      · exact ⟨_, _, .call true (exec_respond _ _ _), rfl, rfl⟩
      · exact ⟨_, _, .call true (exec_respond _ _ _), rfl, rfl⟩
    · exact ⟨_, _, .call true (exec_respond _ _ _), rfl, rfl⟩
  · exact ⟨_, _, exec_respond _ _ _, rfl, rfl⟩

theorem SessionStep.login {users : DatabaseHandler} {cb : ConnectionBuffer} {p : PacketLogin}
    {w : SessionState} {c : ConnId} {session : Session} (receiveBuffer : Buffer)
    (hdecode : PacketLogin.decode cb.buffer = some p) (hlive : w.live c = some session) :
    let after := HandlerState.afterLogin ⟨session, w.g, Buffer.zero⟩ users p
    SessionStep users w (.packet c .reqLogin receiveBuffer cb)
      (w.set c (some after.session) after.g) := by
  intro after
  obtain ⟨events, t, run, hsession, hg⟩ := exec_reqLogin users hdecode
    ⟨session, w.g, Buffer.zero⟩
  rw [← hsession, ← hg]
  have served : Exec (dispatch users 0 .reqLogin receiveBuffer cb ⟨session, w.g, Buffer.zero⟩)
      events (.ok t) := run
  exact .packet 0 Buffer.zero events t hlive served

theorem SessionStep.logout (users : DatabaseHandler) {w : SessionState} {c : ConnId}
    {session : Session} (receiveBuffer : Buffer) (cb : ConnectionBuffer)
    (hlive : w.live c = some session) :
    let after := HandlerState.afterLogout ⟨session, w.g, Buffer.zero⟩
    SessionStep users w (.packet c .reqLogout receiveBuffer cb)
      (w.set c (some after.session) after.g) := by
  intro after
  let t : HandlerState := ⟨after.session, after.g, after.tls.setHeader .respOk sizeofSamplePacket⟩
  have served : Exec (dispatch users 0 .reqLogout receiveBuffer cb ⟨session, w.g, Buffer.zero⟩)
      _ (.ok t) := exec_respond after _ _
  exact .packet 0 Buffer.zero _ t hlive served

end ConcurrentTcp
