import ConcurrentTcp.Server.Descriptors

/-!
The descriptors that a connection opens.

`connectionSystem` serves the packets of one connection, whatever the rest of the server
does meanwhile. The fields `fd` and `download_fd` are overwritten by each open and closed by
the destructor, whether they stand for an open file or not; so a number is lost, or closed
twice, unless the requests of the connection are `Orderly`. `descriptors_closed_once` says
that with such requests every number is closed exactly once.
-/

namespace ConcurrentTcp

open Interaction Transition

open Descriptors (Use closesOf ClosedOnce Fresh Settles settles_nil)

/-! ### Connections -/

/-- The session of a connection, with the transfers that it has open. -/
structure ConnectionState where
  session : Session
  transfers : Transfers

def ConnectionState.accepted (socketFd : Int) : ConnectionState :=
  { session := .accepted socketFd, transfers := .idle }

/-- A packet that was served. -/
structure ConnectionLabel where
  packetType : PacketType
  events : List ServerEvent

inductive ConnectionStep (users : DatabaseHandler) :
    ConnectionState → ConnectionLabel → ConnectionState → Prop where
  | packet {s : ConnectionState} {ty : PacketType} {events : List ServerEvent} {t : HandlerState}
      (fuel : Nat) (receiveBuffer tls : Buffer) (cb : ConnectionBuffer) (g : GlobalState) :
      Exec (dispatch users fuel ty receiveBuffer cb ⟨s.session, g, tls⟩) events (.ok t) →
      ConnectionStep users s ⟨ty, events⟩
        ⟨t.session, events.foldl (Transfers.call s.session.id) s.transfers⟩

/-- A connection from its accept on. -/
def connectionSystem (users : DatabaseHandler) : System ConnectionState ConnectionLabel where
  init := fun s => ∃ socketFd, s = .accepted socketFd
  step := ConnectionStep users

/-! ### Numbers -/

/-- An open that fails returns a negative number. -/
def opened? (fd : Int) : Option Use := if 0 ≤ fd then some (.opened fd) else none

/-- What a call does with a number. -/
def use? : ServerEvent → Option Use
  | ⟨.openFile _ _, fd⟩ => opened? fd
  | ⟨.close fd, _⟩ => some (.closed fd)
  | _ => none

def uses (events : List ServerEvent) : List Use := events.filterMap use?

/-- What was opened and closed in a run. -/
def usesOf (moves : List (Move ConnectionState ConnectionLabel)) : List Use :=
  moves.flatMap fun m => uses m.label.events

/-- The number of an open transfer. -/
def ConnectionState.Held (s : ConnectionState) (fd : Int) : Prop :=
  (s.transfers.upload ≠ none ∧ fd = s.session.fd) ∨
    (s.transfers.download ≠ none ∧ fd = s.session.downloadFd)

/-- What the fields of the session stand for. The destructor does no harm to `fd` when
no upload is open. -/
structure ConnectionState.Sound (s : ConnectionState) : Prop where
  upload : s.transfers.upload ≠ none → 0 < s.session.fd
  noUpload : s.transfers.upload = none → s.session.fd ≤ 0
  download : s.transfers.download ≠ none → 0 < s.session.downloadFd
  apart : s.transfers.upload ≠ none → s.transfers.download ≠ none →
    s.session.fd ≠ s.session.downloadFd

/-- A file is opened only when its transfer is not open, and gets a number other than 0;
the size of a file that was opened to download is found; and a download is read and closed
only while it is open, or when the connection never had one, unless nothing is closed. -/
def Orderly (s : ConnectionState) (l : ConnectionLabel) : Prop :=
  s.session.id ≠ [] →
    match l.packetType with
    | .reqFileTransferStart =>
        ∀ path (file : Int), ⟨.openFile path true, file⟩ ∈ l.events →
          s.transfers.upload = none ∧ file ≠ 0
    | .reqFileOpen =>
        ∀ path (file : Int), ⟨.openFile path false, file⟩ ∈ l.events → 0 ≤ file →
          s.transfers.download = none ∧ file ≠ 0 ∧ ⟨.fstat file, (none : Option Nat)⟩ ∉ l.events
    | .reqFileDownloadChunk =>
        s.transfers.download ≠ none ∨ s.session.downloadFd = 0 ∨
          ∀ fd offset (position : Int), ⟨.lseek fd offset, position⟩ ∈ l.events →
            position = offset
    | .reqFileClose =>
        s.session.downloadFd = 0 ∨ (s.transfers.download ≠ none ∧
          ∀ fd (result : Int), ⟨.close fd, result⟩ ∈ l.events → 0 ≤ result)
    | _ => True

/-- The connection ends while a download is open, or with 0 in `download_fd`. -/
def OrderlyEnd (s : ConnectionState) : Prop :=
  s.transfers.download ≠ none ∨ s.session.downloadFd = 0

section Steps

variable {users : DatabaseHandler} {s t : ConnectionState} {l : ConnectionLabel}
  {user : Str} {later : List Use}

/-- What is left to show of a step, from what comes after it. -/
structure Advances (s : ConnectionState) (here : List Use) (t : ConnectionState)
    (later : List Use) : Prop where
  sound : t.Sound
  fresh : Fresh t.Held later
  settles : Settles t.Held later → Settles s.Held (here ++ later)

/-- Nothing is opened or closed. -/
theorem advances_quiet (sound : s.Sound) (hfd : t.session.fd = s.session.fd)
    (hdownload : t.session.downloadFd = s.session.downloadFd) (hx : t.transfers = s.transfers)
    (fresh : Fresh s.Held later) : Advances s [] t later := by
  have hheld : t.Held = s.Held := by
    funext fd
    unfold ConnectionState.Held
    rw [hfd, hdownload, hx]
  refine ⟨?_, hheld ▸ fresh, fun h => hheld ▸ h⟩
  constructor
  · rw [hfd, hx]
    exact sound.upload
  · rw [hfd, hx]
    exact sound.noUpload
  · rw [hdownload, hx]
    exact sound.download
  · rw [hfd, hdownload, hx]
    exact sound.apart

theorem ConnectionState.Sound.pos (sound : s.Sound) {fd : Int} (held : s.Held fd) : 0 < fd := by
  rcases held with ⟨hx, rfl⟩ | ⟨hx, rfl⟩
  · exact sound.upload hx
  · exact sound.download hx

/-- An upload begins. -/
theorem advances_upload {file : Int} (sound : s.Sound) (hidle : s.transfers.upload = none)
    (hfile : 0 < file) (hx : t.transfers = { s.transfers with upload := some user })
    (hsession : t.session = { s.session with fd := file })
    (fresh : Fresh s.Held ([.opened file] ++ later)) : Advances s [.opened file] t later := by
  obtain ⟨hfree, fresh⟩ := fresh
  have hheld : t.Held = fun n => n = file ∨ s.Held n := by
    funext n
    simp [ConnectionState.Held, hx, hsession, hidle]
  refine ⟨?_, hheld ▸ fresh, fun h => ?_⟩
  · constructor
    · intro _
      rw [hsession]
      exact hfile
    · rw [hx]
      nofun
    · rw [hsession, hx]
      exact sound.download
    · rw [hsession, hx]
      rintro - hdownload heq
      exact hfree (.inr ⟨hdownload, heq⟩)
  · rw [hheld] at h
    exact h.opened hfile hfree

/-- A download begins. -/
theorem advances_download {file : Int} (sound : s.Sound) (hidle : s.transfers.download = none)
    (hfile : 0 < file) (hx : t.transfers = { s.transfers with download := some user })
    (hsession : t.session = { s.session with downloadFd := file })
    (fresh : Fresh s.Held ([.opened file] ++ later)) : Advances s [.opened file] t later := by
  obtain ⟨hfree, fresh⟩ := fresh
  have hheld : t.Held = fun n => n = file ∨ s.Held n := by
    funext n
    simp [ConnectionState.Held, hx, hsession, hidle, or_comm]
  refine ⟨?_, hheld ▸ fresh, fun h => ?_⟩
  · constructor
    · rw [hsession, hx]
      exact sound.upload
    · rw [hsession, hx]
      exact sound.noUpload
    · intro _
      rw [hsession]
      exact hfile
    · rw [hsession, hx]
      rintro hupload - heq
      exact hfree (.inl ⟨hupload, heq.symm⟩)
  · rw [hheld] at h
    exact h.opened hfile hfree

/-- A download ends; `download_fd` keeps its number or is reset. -/
theorem advances_close (sound : s.Sound) (hopen : s.transfers.download ≠ none)
    (hx : t.transfers = { s.transfers with download := none })
    (hfd : t.session.fd = s.session.fd)
    (fresh : Fresh s.Held ([.closed s.session.downloadFd] ++ later)) :
    Advances s [.closed s.session.downloadFd] t later := by
  have hheld : t.Held = fun n => n ≠ s.session.downloadFd ∧ s.Held n := by
    funext n
    have hapart := sound.apart
    simp only [ConnectionState.Held, hx, hfd, eq_iff_iff]
    grind
  refine ⟨?_, hheld ▸ fresh, fun h => ?_⟩
  · constructor
    · rw [hfd, hx]
      exact sound.upload
    · rw [hfd, hx]
      exact sound.noUpload
    · rw [hx]
      exact fun h => absurd rfl h
    · rw [hx]
      exact fun _ h => absurd rfl h
  · rw [hheld] at h
    exact h.closed (sound.download hopen) (.inr ⟨hopen, rfl⟩)

/-- An open for an upload that fails leaves its result in `fd`. -/
theorem advances_notOpened {file : Int} (sound : s.Sound) (hidle : s.transfers.upload = none)
    (hfile : file < 0) (hx : t.transfers = s.transfers)
    (hsession : t.session = { s.session with fd := file }) (fresh : Fresh s.Held later) :
    Advances s [] t later := by
  have hheld : t.Held = s.Held := by
    funext fd
    simp [ConnectionState.Held, hx, hsession, hidle]
  refine ⟨?_, hheld ▸ fresh, fun h => hheld ▸ h⟩
  constructor
  · rw [hx]
    exact fun h => absurd hidle h
  · rw [hsession]
    exact fun _ => Int.le_of_lt hfile
  · rw [hsession, hx]
    exact sound.download
  · rw [hx]
    exact fun h => absurd hidle h

/-- The close of number 0. -/
theorem Advances.closeZero {here : List Use} (h : Advances s here t later) :
    Advances s (.closed 0 :: here) t later :=
  ⟨h.sound, h.fresh, fun later => (h.settles later).idle (Int.le_refl 0)⟩

theorem fresh_of_closeZero (sound : s.Sound) (fresh : Fresh s.Held (.closed 0 :: later)) :
    Fresh s.Held later :=
  Fresh.mono fresh fun _ hheld => ⟨Int.ne_of_gt (sound.pos hheld), hheld⟩

end Steps

/-! ### Requests -/

section Requests

variable {users : DatabaseHandler} {fuel : Nat} {receiveBuffer : Buffer} {cb : ConnectionBuffer}
  {ty : PacketType} {h h' : HandlerState} {x : Transfers} {user : Str} {later : List Use}
  {events : List ServerEvent}

theorem usesOf_cons (m : Move ConnectionState ConnectionLabel)
    (moves : List (Move ConnectionState ConnectionLabel)) :
    usesOf (m :: moves) = uses m.label.events ++ usesOf moves :=
  List.flatMap_cons

theorem usesOf_append (first second : List (Move ConnectionState ConnectionLabel)) :
    usesOf (first ++ second) = usesOf first ++ usesOf second :=
  List.flatMap_append

theorem uses_of_not_onDescriptor (avoids : ∀ e ∈ events, e.op.onDescriptor = false) :
    uses events = [] := by
  refine List.filterMap_eq_nil_iff.mpr fun e he => ?_
  obtain ⟨op, ans⟩ := e
  have hop := avoids _ he
  cases op <;> first | rfl | cases hop

/-- The connection after a handler. -/
abbrev served (user : Str) (x : Transfers) (events : List ServerEvent) (h : HandlerState) :
    ConnectionState :=
  ⟨h.session, events.foldl (Transfers.call user) x⟩

theorem advances_avoids {p : ServerProg HandlerState} (keeps : KeepsDescriptors h.session p)
    (exec : Exec p events (.ok h')) (sound : ConnectionState.Sound ⟨h.session, x⟩)
    (fresh : Fresh (ConnectionState.Held ⟨h.session, x⟩) (uses events ++ later)) :
    Advances ⟨h.session, x⟩ (uses events) (served user x events h') later := by
  obtain ⟨avoids, same⟩ := keeps.sound exec fun _ _ => trivial
  rw [uses_of_not_onDescriptor avoids] at fresh ⊢
  exact advances_quiet sound same.fd same.downloadFd (foldl_of_not_onDescriptor avoids) fresh

theorem advances_reqFileTransferStart
    (exec : Exec (reqFileTransferStart cb h) events (.ok h'))
    (sound : ConnectionState.Sound ⟨h.session, x⟩)
    (orderly : ∀ path (file : Int), ⟨.openFile path true, file⟩ ∈ events →
      x.upload = none ∧ file ≠ 0)
    (fresh : Fresh (ConnectionState.Held ⟨h.session, x⟩) (uses events ++ later)) :
    Advances ⟨h.session, x⟩ (uses events) (served user x events h') later := by
  rcases exec_reqFileTransferStart_cases exec with ⟨p, keeps, refused⟩ | ⟨path, file, rfl, hout⟩
  · exact advances_avoids keeps refused sound fresh
  · cases hout
    obtain ⟨hidle, hne⟩ := orderly path file (by simp)
    by_cases hfile : 0 ≤ file
    · have hpos : 0 < file := by omega
      have huses : uses [⟨.openFile path true, file⟩,
          ⟨.send (sampleFrame h.tls .respContinue), ()⟩] = [.opened file] := by
        simp [uses, use?, opened?, hfile]
      rw [huses] at fresh ⊢
      have hx : uploadedBy user file = some user := by simp [uploadedBy, hfile]
      exact advances_upload sound hidle hpos (congrArg (Transfers.mk · x.download) hx) rfl fresh
    · have huses : uses [⟨.openFile path true, file⟩,
          ⟨.send (sampleFrame h.tls .respContinue), ()⟩] = [] := by
        simp [uses, use?, opened?, hfile]
      rw [huses] at fresh ⊢
      have hneg : file < 0 := by omega
      have hx : uploadedBy user file = x.upload := by simp [uploadedBy, hfile, hidle]
      exact advances_notOpened sound hidle hneg (congrArg (Transfers.mk · x.download) hx) rfl fresh

theorem advances_writeFileData {answer : PacketType}
    (exec : Exec (writeFileData answer cb h) events (.ok h'))
    (sound : ConnectionState.Sound ⟨h.session, x⟩)
    (fresh : Fresh (ConnectionState.Held ⟨h.session, x⟩) (uses events ++ later)) :
    Advances ⟨h.session, x⟩ (uses events) (served user x events h') later := by
  obtain ⟨written, rfl, hout⟩ := exec_writeFileData_iff.mp exec
  cases hout
  exact advances_quiet sound rfl rfl rfl fresh

theorem advances_reqFileOpen (exec : Exec (reqFileOpen cb h) events (.ok h'))
    (sound : ConnectionState.Sound ⟨h.session, x⟩)
    (orderly : ∀ path (file : Int), ⟨.openFile path false, file⟩ ∈ events → 0 ≤ file →
      x.download = none ∧ file ≠ 0 ∧ ⟨.fstat file, (none : Option Nat)⟩ ∉ events)
    (fresh : Fresh (ConnectionState.Held ⟨h.session, x⟩) (uses events ++ later)) :
    Advances ⟨h.session, x⟩ (uses events) (served user x events h') later := by
  rcases exec_reqFileOpen_cases exec with ⟨p, keeps, refused⟩ | ⟨name, path, t, hout, opens⟩
  · exact advances_avoids keeps refused sound fresh
  cases hout
  cases opens with
  | notOpened file hfile =>
      have hneg : ¬ 0 ≤ file := by
        intro hnonneg
        obtain ⟨-, hne, -⟩ := orderly path file (by simp) hnonneg
        omega
      have huses : uses [⟨.openFile path false, file⟩,
          ⟨.send (sampleFrame h.tls .respIoError), ()⟩] = [] := by
        simp [uses, use?, opened?, hneg]
      rw [huses] at fresh ⊢
      exact advances_quiet sound rfl rfl rfl fresh
  | noSize file hfile =>
      obtain ⟨-, -, hsize⟩ := orderly path file (by simp) (by omega)
      simp at hsize
  | opened file fileSize p hfile hp =>
      have hpos : 0 < file := by omega
      have hnonneg : 0 ≤ file := by omega
      obtain ⟨hidle, -⟩ := orderly path file (by simp) hnonneg
      have huses : uses [⟨.openFile path false, file⟩, ⟨.fstat file, some fileSize⟩,
          ⟨.send (p.read 0 sizeofPacketDownloadedFileInfo), ()⟩] = [.opened file] := by
        simp [uses, use?, opened?, hnonneg]
      rw [huses] at fresh ⊢
      exact advances_download sound hidle hpos rfl rfl fresh

theorem advances_reqFileDownloadChunk (exec : Exec (reqFileDownloadChunk cb h) events (.ok h'))
    (sound : ConnectionState.Sound ⟨h.session, x⟩)
    (orderly : x.download ≠ none ∨ h.session.downloadFd = 0 ∨
      ∀ fd offset (position : Int), ⟨.lseek fd offset, position⟩ ∈ events → position = offset)
    (fresh : Fresh (ConnectionState.Held ⟨h.session, x⟩) (uses events ++ later)) :
    Advances ⟨h.session, x⟩ (uses events) (served user x events h') later := by
  obtain ⟨t, hout, reads⟩ := exec_reqFileDownloadChunk_iff.mp exec
  cases hout
  cases reads with
  | notThere position closed hposition =>
      have huses : uses [⟨.lseek h.session.downloadFd (chunkOffset cb), position⟩,
          ⟨.close h.session.downloadFd, closed⟩, ⟨.send (sampleFrame h.tls .respIoError), ()⟩,
          ⟨.send (sampleFrame h.tls .respIoError), ()⟩] = [.closed h.session.downloadFd] := rfl
      rw [huses] at fresh ⊢
      by_cases hopen : x.download = none
      · rcases orderly with hdownload | hzero | hfound
        · exact absurd hopen hdownload
        · rw [hzero] at fresh ⊢
          apply Advances.closeZero
          refine advances_quiet sound rfl hzero.symm ?_ (fresh_of_closeZero sound fresh)
          exact congrArg (Transfers.mk x.upload) hopen.symm
        · exact absurd (hfound _ _ position List.mem_cons_self) hposition
      · exact advances_close sound hopen rfl rfl fresh
  | answered data => exact advances_quiet sound rfl rfl rfl fresh

theorem advances_reqFileClose (exec : Exec (reqFileClose h) events (.ok h'))
    (sound : ConnectionState.Sound ⟨h.session, x⟩)
    (orderly : h.session.downloadFd = 0 ∨ (x.download ≠ none ∧
      ∀ fd (result : Int), ⟨.close fd, result⟩ ∈ events → 0 ≤ result))
    (fresh : Fresh (ConnectionState.Held ⟨h.session, x⟩) (uses events ++ later)) :
    Advances ⟨h.session, x⟩ (uses events) (served user x events h') later := by
  -- A connection without a download closes nothing.
  have quiet {t : ConnectionState} (hzero : h.session.downloadFd = 0)
      (hfd : t.session.fd = h.session.fd) (hdownload : t.session.downloadFd = 0)
      (hx : t.transfers = { x with download := none }) {later : List Use}
      (fresh : Fresh (ConnectionState.Held ⟨h.session, x⟩) later) :
      Advances ⟨h.session, x⟩ [] t later := by
    have hidle : x.download = none := by
      by_contra hopen
      have hpos : 0 < h.session.downloadFd := sound.download hopen
      omega
    refine advances_quiet sound hfd (hdownload.trans hzero.symm) (hx.trans ?_) fresh
    exact congrArg (Transfers.mk x.upload) hidle.symm
  rcases exec_reqFileClose_cases exec with
    ⟨closed, hclosed, rfl, hout⟩ | ⟨closed, again, hclosed, rfl, hout⟩
  · cases hout
    have huses : uses [⟨.close h.session.downloadFd, closed⟩,
        ⟨.send (sampleFrame h.tls .respOk), ()⟩] = [.closed h.session.downloadFd] := rfl
    rw [huses] at fresh ⊢
    rcases orderly with hzero | ⟨hopen, -⟩
    · rw [hzero] at fresh ⊢
      exact .closeZero (quiet hzero rfl hzero rfl (fresh_of_closeZero sound fresh))
    · exact advances_close sound hopen rfl rfl fresh
  · cases hout
    rcases orderly with hzero | ⟨-, hsucceeds⟩
    · have huses : uses [⟨.close h.session.downloadFd, closed⟩,
          ⟨.close h.session.downloadFd, again⟩,
          ⟨.send (sampleFrame h.tls .respIoError), ()⟩] = [.closed 0, .closed 0] := by
        simp [uses, use?, hzero]
      rw [huses] at fresh ⊢
      have rest := fresh_of_closeZero sound (fresh_of_closeZero sound fresh)
      exact .closeZero (.closeZero (quiet hzero rfl rfl rfl rest))
    · have hresult := hsucceeds h.session.downloadFd closed (by simp)
      omega

/-- A packet of an orderly request. -/
theorem advances_dispatch (user : Str)
    (exec : Exec (dispatch users fuel ty receiveBuffer cb h) events (.ok h'))
    (sound : ConnectionState.Sound ⟨h.session, x⟩)
    (orderly : Orderly ⟨h.session, x⟩ ⟨ty, events⟩)
    (fresh : Fresh (ConnectionState.Held ⟨h.session, x⟩) (uses events ++ later)) :
    Advances ⟨h.session, x⟩ (uses events) (served user x events h') later := by
  by_cases avoids : ty.isTransfer = false ∨ h.session.id = []
  · exact advances_avoids (dispatch_avoids avoids) exec sound fresh
  · obtain ⟨htransfer, hid⟩ := not_or.mp avoids
    have orderly := orderly hid
    rcases isTransfer_cases (Bool.not_eq_false _ ▸ htransfer) with
      rfl | rfl | rfl | rfl | rfl | rfl
    · rw [dispatch_authorized hid rfl] at exec
      exact advances_reqFileTransferStart exec sound orderly fresh
    · rw [dispatch_authorized hid rfl] at exec
      exact advances_writeFileData exec sound fresh
    · rw [dispatch_authorized hid rfl] at exec
      exact advances_writeFileData exec sound fresh
    · rw [dispatch_authorized hid rfl] at exec
      exact advances_reqFileOpen exec sound orderly fresh
    · rw [dispatch_authorized hid rfl] at exec
      exact advances_reqFileDownloadChunk exec sound orderly fresh
    · rw [dispatch_authorized hid rfl] at exec
      exact advances_reqFileClose exec sound orderly fresh

end Requests

/-! ### Runs -/

section Runs

variable {users : DatabaseHandler} {s t : ConnectionState} {g : GlobalState}
  {moves : List (Move ConnectionState ConnectionLabel)} {last : List ServerEvent}
  {out : Except Fault GlobalState}

/-- The destructor closes what is left. -/
theorem settles_destroyConnection (exec : Exec (destroyConnection t.session g) last out)
    (sound : t.Sound) (orderly : OrderlyEnd t) : Settles t.Held (uses last) := by
  obtain ⟨first, second, rest, rfl, avoids⟩ := destroyConnection_inv exec
  have huses : uses (⟨.close t.session.fd, first⟩ :: ⟨.close t.session.downloadFd, second⟩ :: rest)
      = .closed t.session.fd :: .closed t.session.downloadFd :: uses rest := rfl
  rw [huses, uses_of_not_onDescriptor avoids]
  -- Only the download is left after the first close.
  have download : Settles (fun n => t.transfers.download ≠ none ∧ n = t.session.downloadFd)
      [.closed t.session.downloadFd] := by
    by_cases hopen : t.transfers.download = none
    · rcases orderly with hdownload | hzero
      · exact absurd hopen hdownload
      · rw [hzero]
        exact (settles_nil.congr fun n _ => by simp [hopen]).idle (Int.le_refl 0)
    · refine (settles_nil.congr fun n _ => ?_).closed (sound.download hopen) ⟨hopen, rfl⟩
      simp [hopen]
  by_cases hidle : t.transfers.upload = none
  · exact (download.congr fun n _ => by simp [ConnectionState.Held, hidle]).idle
      (sound.noUpload hidle)
  · refine (download.congr fun n _ => ?_).closed (sound.upload hidle) (.inl ⟨hidle, rfl⟩)
    have hapart := sound.apart hidle
    simp only [ConnectionState.Held]
    grind

theorem ConnectionState.sound_accepted (socketFd : Int) :
    (ConnectionState.accepted socketFd).Sound where
  upload := fun h => absurd rfl h
  noUpload := fun _ => Int.le_refl 0
  download := fun h => absurd rfl h
  apart := fun h => absurd rfl h

/-- From any state whose fields stand for what is open. -/
theorem settles_of_orderly (run : Run (connectionSystem users) s moves t)
    (orderly : ∀ m ∈ moves, Orderly m.pre m.label) (ends : OrderlyEnd t)
    (exec : Exec (destroyConnection t.session g) last out) (sound : s.Sound)
    (fresh : Fresh s.Held (usesOf moves ++ uses last)) :
    Settles s.Held (usesOf moves ++ uses last) := by
  induction run with
  | nil s => exact settles_destroyConnection exec sound ends
  | @cons s u t l moves step _ ih =>
      obtain ⟨here, later⟩ := List.forall_mem_cons.mp orderly
      have huses : usesOf (⟨s, l, u⟩ :: moves) ++ uses last =
          uses l.events ++ (usesOf moves ++ uses last) := by rw [usesOf_cons, List.append_assoc]
      rw [huses] at fresh ⊢
      cases step with
      | packet fuel receiveBuffer tls cb g packet =>
          have advances :=
            advances_dispatch s.session.id (x := s.transfers) packet sound here fresh
          exact advances.settles (ih later ends exec advances.sound advances.fresh)

/-- When a connection whose requests are orderly has ended, every number that an open
returned for it has been closed exactly once. `fresh` is what the operating system promises: an
open returns no number that is open. -/
theorem descriptors_closed_once {socketFd : Int}
    (run : Run (connectionSystem users) (.accepted socketFd) moves t)
    (orderly : ∀ m ∈ moves, Orderly m.pre m.label) (ends : OrderlyEnd t)
    (exec : Exec (destroyConnection t.session g) last out)
    (fresh : Fresh (fun _ => False) (usesOf moves ++ uses last)) :
    ClosedOnce (usesOf moves ++ uses last) := by
  have none_held : (ConnectionState.accepted socketFd).Held = fun _ => False := by
    funext fd
    simp [ConnectionState.Held, ConnectionState.accepted, Transfers.idle]
  exact (settles_of_orderly run orderly ends exec (ConnectionState.sound_accepted socketFd)
    (none_held ▸ fresh)).once

/-! ### Clients that upload -/

theorem step_rootLogin : ∃ events, uses events = [] ∧
    ConnectionStep exampleUsers (.accepted 5) ⟨.reqLogin, events⟩ ⟨rootSession, .idle⟩ := by
  obtain ⟨events, h, login, hsession, -⟩ := exec_reqLogin exampleUsers decode_rootLogin
    ⟨.accepted 5, .initial, Buffer.zero⟩
  rw [afterLogin_root.1] at hsession
  have exec : Exec (dispatch exampleUsers 0 .reqLogin Buffer.zero _ _) events (.ok h) := login
  have avoids := ((dispatch_avoids (.inl rfl)).sound exec fun _ _ => trivial).1
  have step : ConnectionStep exampleUsers (.accepted 5) ⟨.reqLogin, events⟩ _ :=
    .packet 0 Buffer.zero Buffer.zero _ _ exec
  rw [hsession, foldl_of_not_onDescriptor avoids] at step
  exact ⟨events, uses_of_not_onDescriptor avoids, step⟩

/-- The calls that start an upload of the file `a`, and get the number `fd`. -/
def starting (session : Session) (fd : Int) : List ServerEvent :=
  [⟨.openFile (snprintfPath session (ascii "a")) true, fd⟩,
    ⟨.send (sampleFrame Buffer.zero .respContinue), ()⟩]

theorem step_start {session : Session} {x : Transfers} (hid : session.id ≠ []) (fd : Int) :
    ConnectionStep exampleUsers ⟨session, x⟩ ⟨.reqFileTransferStart, starting session fd⟩
      ⟨{ session with fd := fd }, { x with upload := uploadedBy session.id fd }⟩ := by
  let h : HandlerState := ⟨{ session with fd := fd }, .initial,
    Buffer.zero.setHeader .respContinue sizeofSamplePacket⟩
  have starts : Exec (dispatch exampleUsers 0 .reqFileTransferStart Buffer.zero startPacket
      ⟨session, .initial, Buffer.zero⟩) (starting session fd) (.ok h) := by
    rw [dispatch_authorized hid rfl]
    exact (exec_reqFileTransferStart_iff decode_startPacket (by decide)).mpr ⟨fd, rfl, rfl⟩
  exact .packet (s := ⟨session, x⟩) 0 _ _ _ _ starts

theorem orderly_start {session : Session} {x : Transfers} {fd : Int} (hidle : x.upload = none)
    (hfd : fd ≠ 0) : Orderly ⟨session, x⟩ ⟨.reqFileTransferStart, starting session fd⟩ := by
  intro _ path file opened
  rcases List.mem_cons.mp opened with heq | hsend
  · cases heq
    exact ⟨hidle, hfd⟩
  · cases List.mem_singleton.mp hsend

/-- The root of the example users, while an upload is open. -/
def uploading (fd : Int) : ConnectionState :=
  ⟨{ rootSession with fd := fd }, { upload := some (ascii "1"), download := none }⟩

theorem exists_upload : ∃ moves, Run (connectionSystem exampleUsers) (.accepted 5) moves
    (uploading 6) ∧ usesOf moves = [.opened 6] ∧ ∀ m ∈ moves, Orderly m.pre m.label := by
  obtain ⟨events, quiet, login⟩ := step_rootLogin
  have start : ConnectionStep exampleUsers ⟨rootSession, .idle⟩ _ (uploading 6) :=
    step_start (List.cons_ne_nil _ _) 6
  refine ⟨_, .cons login (.one start), ?_, ?_⟩
  · rw [usesOf_cons, quiet]
    rfl
  · exact List.forall_mem_cons.mpr ⟨fun _ => trivial,
      List.forall_mem_singleton.mpr (orderly_start rfl (by simp))⟩

/-- The destructor closes `fd` and number 0. -/
theorem exec_destroyUploading (fd : Int) : ∃ last, uses last = [.closed fd, .closed 0] ∧
    Exec (destroyConnection (uploading fd).session adminConnected) last (.ok .initial) := by
  have destroys : Exec (destroyConnection (uploading fd).session adminConnected)
      [⟨.close fd, (0 : Int)⟩, ⟨.close 0, (0 : Int)⟩,
        ⟨.opendir (ascii "./tmp/1"), (none : Option (List Str))⟩] (.ok .initial) :=
    .call _ (.call _ (.call _ (.ret _)))
  exact ⟨_, rfl, destroys⟩

/-- The root of the example users uploads one file. -/
theorem descriptors_closed_once_upload :
    ∃ moves t last, Run (connectionSystem exampleUsers) (.accepted 5) moves t ∧
      Exec (destroyConnection t.session adminConnected) last (.ok .initial) ∧
      usesOf moves ++ uses last = [.opened 6, .closed 6, .closed 0] ∧
      ClosedOnce (usesOf moves ++ uses last) := by
  obtain ⟨moves, run, opens, orderly⟩ := exists_upload
  obtain ⟨last, closes, destroyed⟩ := exec_destroyUploading 6
  have huses : usesOf moves ++ uses last = [.opened 6, .closed 6, .closed 0] := by
    rw [opens, closes]
    rfl
  have fresh : Fresh (fun _ => False) (usesOf moves ++ uses last) := by simp [huses, Fresh]
  exact ⟨moves, _, last, run, destroyed, huses,
    descriptors_closed_once run orderly (.inr rfl) destroyed fresh⟩

/-- The number of the first of two uploads is never closed. -/
theorem upload_descriptor_lost :
    ∃ moves t last, Run (connectionSystem exampleUsers) (.accepted 5) moves t ∧
      Exec (destroyConnection t.session adminConnected) last (.ok .initial) ∧
      Fresh (fun _ => False) (usesOf moves ++ uses last) ∧
      ¬ ClosedOnce (usesOf moves ++ uses last) := by
  obtain ⟨moves, run, opens, -⟩ := exists_upload
  let second : ConnectionLabel := ⟨.reqFileTransferStart, starting (uploading 6).session 7⟩
  have again : ConnectionStep exampleUsers (uploading 6) second (uploading 7) :=
    step_start (List.cons_ne_nil _ _) 7
  obtain ⟨last, closes, destroyed⟩ := exec_destroyUploading 7
  have huses : usesOf (moves ++ [⟨uploading 6, second, uploading 7⟩]) ++ uses last =
      [.opened 6, .opened 7, .closed 7, .closed 0] := by
    rw [usesOf_append, opens, closes]
    rfl
  refine ⟨_, _, last, run.append (.one again), destroyed, ?_, ?_⟩
  · simp [huses, Fresh]
  · simp [huses, ClosedOnce, closesOf]

end Runs

end ConcurrentTcp
