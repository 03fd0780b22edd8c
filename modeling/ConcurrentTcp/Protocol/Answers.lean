import ConcurrentTcp.Protocol.ResponseFormats
import ConcurrentTcp.Server.LoginHistory
import ConcurrentTcp.Server.Outcomes
import ConcurrentTcp.Server.SessionStrings
import ConcurrentTcp.Transfer.DownloadFile

/-!
What a response says, and that it is so.

`Report.Holds` is what a report says of the state in which the request was found, of the calls
made for it and of the state it left. `Replies` judges a handler by it: a run that returns has
sent once, as its last call, and the client makes a report of it that holds.
`responses_hold` has this for every request of every run of the sessions; the chunks of a
download, which the client does not report, and the request without an answer are apart.
-/

namespace ConcurrentTcp

open Interaction Transition

/-! ### Reports -/

/-- The client makes this report of the response, whatever its receive buffer held. -/
def ReportedAs (frame : List UInt8) (report : Report) : Prop :=
  ∀ buf : Buffer, readReport (buf.write 0 (recvFromServer frame).1) = some report

/-- The client reads as much as the header says, of a frame that may be longer. -/
theorem Conveys.reportedAs {p : Buffer} {n length : Nat} {report : Report} (h : Conveys p n report)
    (hn : sizeofPacketHeader ≤ n) (hlength : n ≤ length) (hsize : p.totalSize = n) :
    ReportedAs (p.read 0 length) report := by
  intro buf
  obtain ⟨more, rfl⟩ := Nat.exists_eq_add_of_le hlength
  have hread : (recvFromServer (p.read 0 (n + more))).1 = p.read 0 n := by
    have hheader : sizeofPacketHeader = 4 := rfl
    rw [recvFromServer, declaredSize_read _ (by omega), hsize, Nat.max_eq_right hn,
      List.splitAt_eq, Buffer.read_add]
    exact List.take_left' (Buffer.length_read ..)
  rw [hread]
  exact h buf

/-- The results of an operation that are told by a fixed answer. -/
def PacketType.results : PacketType → List PacketType
  | .reqPing => [.respPong]
  | .reqLogout | .reqSetSetting => [.respOk]
  | .reqClean | .reqChangeWorkingDirectory | .reqRemovePath | .reqMkdir | .reqFileClose
  | .reqMoveFile | .reqCopyFile => [.respOk, .respIoError]
  | .reqFileOpen => [.respIoError]
  | .reqFileTransferStart => [.respContinue, .respIoError]
  | .reqFileTransferChunk => [.respContinue]
  | .reqFileTransferEnd => [.respFileTransferOk]
  | .reqCompress => [.respCompress, .respIoError]
  | _ => []

/-- A fixed answer to a request, and the refusals with their reason. -/
def SaidOf (users : DatabaseHandler) (cb : ConnectionBuffer) (s : HandlerState)
    (ty : PacketType) : PacketType → Prop
  | .respNotLoggedIn => ty.needsNoLogin = false ∧ s.session.id = []
  | .respRequiresAdmin => ty.adminOnly = true ∧ s.session.isAdmin = false
  | .respBadLogin => ty = .reqLogin ∧
      ∀ p, PacketLogin.decode cb.buffer = some p → users.login p.username p.password = false
  | .respAdminAlreadyConnected => ty = .reqLogin ∧ s.g.bAdminConnected = true
  | answer => answer ∈ ty.results

/-- What a report says. `s` is the state the request found, `t` the one it left, and `before`
are the calls made before the answer. -/
def Report.Holds (users : DatabaseHandler) (cb : ConnectionBuffer) (s : HandlerState)
    (ty : PacketType) (before : List ServerEvent) (t : HandlerState) : Report → Prop
  | .currentUser id => ty = .reqGetCurrentUser ∧ id = t.session.id
  | .currentDirectory path => ty = .reqCurrentDirectory ∧ path = t.session.currentDir
  | .fileOpened chunks fileName => ty = .reqFileOpen ∧
      PacketDownloadFile.decodePath cb.buffer = some fileName ∧
      ∃ fileSize, ⟨.fstat t.session.downloadFd, some fileSize⟩ ∈ before ∧
        chunks = chunkCount fileSize % 2 ^ 64
  | .connectionsInfo completed active pending => ty = .reqConnectionsInfo ∧
      ∃ sizes : Nat × Nat × Nat, ⟨.containerSizes, sizes⟩ ∈ before ∧
        completed = sizes.1 % 2 ^ 64 ∧ active = sizes.2.1 % 2 ^ 64 ∧ pending = sizes.2.2 % 2 ^ 64
  | .fileList fileNames => ty = .reqFileList ∧
      ∃ entries : Option (List Str), ⟨.opendir t.session.currentDir, entries⟩ ∈ before ∧
        fileNames = shownFirst maxFiles (entries.getD [])
  | .serverStatus totalSize cpuUsage totalMemory uptimeSeconds => ty = .reqServerStatus ∧
      totalSize = sizeofServerStatusPacket ∧ ⟨.cpuUsage, cpuUsage⟩ ∈ before ∧
      (∃ memory : UInt64 × UInt64, ⟨.memoryUsage, memory⟩ ∈ before ∧
        totalMemory = memory.1.toNat) ∧
      ∃ uptime : UInt64, ⟨.uptime, uptime⟩ ∈ before ∧ uptimeSeconds = uptime.toNat
  | .settings compressionLevel => ty = .reqGetSettings ∧ compressionLevel = t.g.compressionLevel
  | .loggedIn isAdmin => ty = .reqLogin ∧ isAdmin = t.session.isAdmin ∧
      ∃ p, PacketLogin.decode cb.buffer = some p ∧ users.login p.username p.password = true ∧
        t.session.id = users.getID p.username
  | .said answer => SaidOf users cb s ty answer
  | .unhandled => False

/-! ### Rules -/

/-- The names that a listing takes from the system are C strings. -/
def NamesEnd (events : List ServerEvent) : Prop :=
  ∀ e ∈ events, ∀ dir names, e = ⟨.opendir dir, some names⟩ → ∀ name ∈ names, 0 ∉ name

/-- A run that returns has sent once, last, and is reported with `Q`. -/
def Replies (Q : List ServerEvent → HandlerState → Report → Prop)
    (p : ServerProg HandlerState) : Prop :=
  Traces (fun events out => NamesEnd events → ∀ t, out = .ok t → ∃ before frame report,
    events = before ++ [⟨.send frame, ()⟩] ∧ sends before = [] ∧ ReportedAs frame report ∧
      Q before t report) p

section Rules

variable {Q : List ServerEvent → HandlerState → Report → Prop} {s : HandlerState} {α : Type}

theorem replies_respond {p : Buffer} {n length : Nat} {report : Report} (h : Conveys p n report)
    (hn : sizeofPacketHeader ≤ n) (hlength : n ≤ length) (hsize : p.totalSize = n)
    (hQ : Q [] { s with tls := p } report) : Replies Q (s.respond p length) := by
  rintro events out run - t rfl
  obtain ⟨rfl, hout⟩ := exec_respond_iff.mp run
  cases hout
  exact ⟨[], _, report, rfl, rfl, h.reportedAs hn hlength hsize, hQ⟩

theorem replies_sendSampleResp {answer : PacketType} (h : answer.isSaid = true)
    (hQ : ∀ t, Q [] t (.said answer)) : Replies Q (sendSampleResp s answer) :=
  replies_respond (conveys_sample s.tls h) (by decide) (Nat.le_refl _)
    (Buffer.totalSize_setHeader ..) (hQ _)

/-- First what does not send. -/
theorem replies_bind {p : ServerProg α} {f : α → ServerProg HandlerState}
    (first : Judged (Proceeds 0 True) p)
    (second : ∀ before a, Exec p before (.ok a) → NamesEnd before →
      Replies (fun after t report => Q (before ++ after) t report) (f a)) :
    Replies Q (p >>= f) := by
  apply Traces.bind
  intro before out run
  cases out with
  | error e => nofun
  | ok a =>
      intro events out tail names t hout
      obtain ⟨here, later⟩ := List.forall_mem_append.mp names
      obtain ⟨after, frame, report, rfl, hquiet, hreport, hQ⟩ :=
        second before a run here events out tail later t hout
      refine ⟨before ++ after, frame, report, (List.append_assoc ..).symm, ?_, hreport, hQ⟩
      rw [sends_append, hquiet, (first before _ run).1]
      rfl

theorem replies_sys {op : SysCall} {f : op.Answer → ServerProg HandlerState}
    (h : op.plain = true)
    (later : ∀ ans, Replies (fun after t report => Q (⟨op, ans⟩ :: after) t report) (f ans)) :
    Replies Q (sys op >>= f) := by
  refine traces_sys fun ans events out run names t hout => ?_
  obtain ⟨before, frame, report, rfl, hquiet, hreport, hQ⟩ :=
    later ans events out run (List.forall_mem_cons.mp names).2 t hout
  refine ⟨⟨op, ans⟩ :: before, frame, report, rfl, ?_, hreport, hQ⟩
  exact (List.filterMap_cons_none (plain_event h ans).1).trans hquiet

theorem replies_orUndefined {a : Option α} {f : α → ServerProg HandlerState}
    (later : ∀ x, a = some x → Replies Q (f x)) : Replies Q (orUndefined a >>= f) := by
  cases a with
  | none => exact Traces.fail fun _ => nofun
  | some x => exact later x rfl

theorem replies_canonical {path : Str} {f : FsPath → ServerProg HandlerState}
    (h : ∀ before p, Replies (fun after t report => Q (before ++ after) t report) (f p)) :
    Replies Q (sys (.weaklyCanonical path) >>= fun r => orThrow r >>= f) :=
  replies_bind (p := sys (.weaklyCanonical path) >>= orThrow) (proceeds_weaklyCanonical path)
    fun before p _ _ => h before p

end Rules

/-! ### What the builders ask -/

theorem exec_createServerStatusPacket {tls p : Buffer} {events : List ServerEvent}
    (run : Exec (createServerStatusPacket tls) events (.ok p)) :
    ∃ (cpuUsage : UInt8) (totalMemory freeMemory uptimeSeconds : UInt64),
      events = [⟨.cpuUsage, cpuUsage⟩, ⟨.memoryUsage, (totalMemory, freeMemory)⟩,
        ⟨.uptime, uptimeSeconds⟩] ∧
      p = serverStatusPacket tls cpuUsage totalMemory freeMemory uptimeSeconds := by
  obtain ⟨cpuUsage, rest, rfl, tail⟩ := exec_sys_iff.mp run
  obtain ⟨memory, later, rfl, last⟩ := exec_sys_iff.mp tail
  obtain ⟨uptimeSeconds, none, rfl, built⟩ := exec_sys_iff.mp last
  obtain ⟨rfl, hp⟩ := Exec.ret_iff.mp built
  cases hp
  exact ⟨cpuUsage, memory.1, memory.2, uptimeSeconds, rfl, rfl⟩

theorem exec_createFileListPacket {currentDir : Str} {tls p : Buffer} {events : List ServerEvent}
    (run : Exec (createFileListPacket currentDir tls) events (.ok p)) :
    ∃ entries : Option (List Str), events = [⟨.opendir currentDir, entries⟩] ∧
      p = fileListPacket tls entries := by
  obtain ⟨q, first, rest, stored, built, rfl⟩ := run.bind_inv
  obtain ⟨rfl, hp⟩ := Exec.ret_iff.mp built
  cases hp
  obtain ⟨entries, later, rfl, tail⟩ := exec_sys_iff.mp stored
  refine ⟨entries, ?_⟩
  cases entries with
  | none =>
      obtain ⟨rfl, hq⟩ := Exec.ret_iff.mp tail
      cases hq
      exact ⟨rfl, rfl⟩
  | some names =>
      obtain ⟨rfl, hq⟩ := Exec.ret_iff.mp tail
      cases hq
      exact ⟨rfl, rfl⟩

/-! ### The handlers -/

section Handlers

variable {users : DatabaseHandler} {cb : ConnectionBuffer} {s : HandlerState}

theorem replies_sendRespNotAdmin {ty : PacketType} (h : ty.adminOnly = true)
    (hadmin : (!s.session.isAdmin) = true) :
    Replies (Report.Holds users cb s ty) (sendRespNotAdmin s) :=
  replies_sendSampleResp rfl fun _ => ⟨h, by simpa using hadmin⟩

theorem replies_reqServerStatus :
    Replies (Report.Holds users cb s .reqServerStatus) (reqServerStatus s) := by
  unfold reqServerStatus
  split
  · rename_i hadmin
    exact replies_sendRespNotAdmin rfl hadmin
  refine replies_bind (proceeds_createServerStatusPacket _) fun before p run _ => ?_
  have hsize := (ends_createServerStatusPacket s.tls).returns run
  obtain ⟨cpuUsage, totalMemory, freeMemory, uptimeSeconds, rfl, rfl⟩ :=
    exec_createServerStatusPacket run
  refine replies_respond (conveys_serverStatus s.tls cpuUsage totalMemory freeMemory uptimeSeconds)
    (by decide) (Nat.le_refl _) hsize ?_
  exact ⟨rfl, rfl, by simp, ⟨(totalMemory, freeMemory), by simp, rfl⟩,
    ⟨uptimeSeconds, by simp, rfl⟩⟩

theorem replies_reqConnectionsInfo :
    Replies (Report.Holds users cb s .reqConnectionsInfo) (reqConnectionsInfo s) := by
  unfold reqConnectionsInfo
  split
  · rename_i hadmin
    exact replies_sendRespNotAdmin rfl hadmin
  refine replies_bind (proceeds_createConnectionsInfoPacket _) fun before p run _ => ?_
  have hsize := (ends_createConnectionsInfoPacket s.tls).returns run
  obtain ⟨sizes, later, rfl, built⟩ := exec_sys_iff.mp run
  obtain ⟨rfl, hp⟩ := Exec.ret_iff.mp built
  cases hp
  refine replies_respond (conveys_connectionsInfo s.tls sizes.1 sizes.2.1 sizes.2.2) (by decide)
    (Nat.le_refl _) hsize ?_
  exact ⟨rfl, sizes, by simp, rfl, rfl, rfl⟩

/-- The answer is longer than its header says. -/
theorem replies_reqGetSettings :
    Replies (Report.Holds users cb s .reqGetSettings) (reqGetSettings s) := by
  unfold reqGetSettings
  split
  · rename_i hadmin
    exact replies_sendRespNotAdmin rfl hadmin
  refine replies_respond (conveys_settings s.g s.tls) (by decide) (by decide) ?_ ⟨rfl, rfl⟩
  simp [createSettingsRespPacket, sizeofGetSettingsPacket]

theorem isSaid_of_mem_results {ty answer : PacketType} (h : answer ∈ ty.results) :
    answer.isSaid = true := by
  have all : ∀ answer ∈ ty.results, answer.isSaid = true := by cases ty <;> decide
  exact all answer h

/-- A refusal is no result. -/
theorem saidOf_of_mem_results {ty answer : PacketType} (h : answer ∈ ty.results) :
    SaidOf users cb s ty answer := by
  cases answer with
  | respNotLoggedIn => cases ty <;> simp [PacketType.results] at h
  | respRequiresAdmin => cases ty <;> simp [PacketType.results] at h
  | respBadLogin => cases ty <;> simp [PacketType.results] at h
  | respAdminAlreadyConnected => cases ty <;> simp [PacketType.results] at h
  | _ => exact h

/-- A result of the operation, whatever was called for it. -/
theorem replies_result {ty answer : PacketType} {after : HandlerState}
    {earlier : List ServerEvent → List ServerEvent} (h : answer ∈ ty.results) :
    Replies (fun events t report => report.Holds users cb s ty (earlier events) t)
      (sendSampleResp after answer) :=
  replies_sendSampleResp (isSaid_of_mem_results h) fun _ => saidOf_of_mem_results h

theorem replies_reqSetSetting (receiveBuffer : Buffer) :
    Replies (Report.Holds users cb s .reqSetSetting) (reqSetSetting receiveBuffer s) := by
  unfold reqSetSetting
  split
  · rename_i hadmin
    exact replies_sendRespNotAdmin rfl hadmin
  · exact replies_result (by decide)

theorem replies_reqClean : Replies (Report.Holds users cb s .reqClean) (reqClean s) := by
  unfold reqClean
  split
  · rename_i hadmin
    exact replies_sendRespNotAdmin rfl hadmin
  apply replies_bind (p := sys (.directoryIterator (ascii "./tmp/")) >>= orThrow)
  · apply proceeds_throwing
    rintro (⟨⟩ | entries)
    · exact ⟨rfl, .inr ⟨rfl, rfl⟩⟩
    · exact ⟨rfl, .inl ⟨rfl, proceeds_ret _⟩⟩
  intro _ entries _ _
  refine replies_bind (proceeds_cleanEntries _ _) fun _ cleaned _ _ => ?_
  cases cleaned <;> exact replies_result (by decide)

theorem replies_reqLogout : Replies (Report.Holds users cb s .reqLogout) (reqLogout s) :=
  replies_result (by decide)

theorem replies_reqLogin : Replies (Report.Holds users cb s .reqLogin) (reqLogin users cb s) := by
  have accepts : ∀ {t : HandlerState} {p : PacketLogin} (e : ServerEvent),
      PacketLogin.decode cb.buffer = some p → users.login p.username p.password = true →
      t.session.id = users.getID p.username →
      Replies (fun after t report => report.Holds users cb s .reqLogin (e :: after) t)
        (sendLoggedIn t) := by
    intro t p e hdecode accepted hid
    refine replies_respond (conveys_loggedIn t.session.isAdmin t.tls) (by decide) (Nat.le_refl _)
      ?_ ⟨rfl, rfl, p, hdecode, accepted, hid⟩
    simp [createLoggedInPacket, Buffer.totalSize_write, sizeofLoggedInPacket]
  apply replies_orUndefined
  intro inPacket hdecode
  split
  · rename_i accepted
    apply replies_sys rfl
    intro made
    split
    · split
      · rename_i connected
        exact replies_sendSampleResp rfl fun _ => ⟨rfl, connected⟩
      · exact accepts _ hdecode accepted rfl
    · exact accepts _ hdecode accepted rfl
  · rename_i rejected
    refine replies_sendSampleResp rfl fun _ => ⟨rfl, fun p hp => ?_⟩
    cases hdecode.symm.trans hp
    simpa using rejected

theorem replies_reqPing : Replies (Report.Holds users cb s .reqPing) (reqPing s) :=
  replies_result (by decide)

theorem replies_reqGetCurrentUser (h : StringSession s.session) :
    Replies (Report.Holds users cb s .reqGetCurrentUser) (reqGetCurrentUser s) := by
  refine replies_respond (conveys_currentUser s.tls h.id h.idFits) (by decide)
    (Nat.le_refl _) ?_ ⟨rfl, rfl⟩
  simp [createCurrentUserPacket, Buffer.totalSize_write, sizeofPacketCurrentUser]

theorem replies_reqCurrentDirectory (h : StringSession s.session)
    (hfits : s.session.currentDir.length < 512) :
    Replies (Report.Holds users cb s .reqCurrentDirectory) (reqCurrentDirectory s) := by
  refine replies_respond (conveys_currentDir s.tls h.currentDir hfits) (by decide)
    (Nat.le_refl _) ?_ ⟨rfl, rfl⟩
  simp [createCurrentDirPacket, sizeofPacketCurrentDirectory]

theorem replies_reqChangeWorkingDirectory :
    Replies (Report.Holds users cb s .reqChangeWorkingDirectory)
      (reqChangeWorkingDirectory cb s) := by
  apply replies_orUndefined
  intro path _
  refine replies_bind (proceeds_cdParts _ _) fun _ newDir _ _ => ?_
  split
  · exact replies_result (by decide)
  · exact replies_result (by decide)

theorem replies_reqRemovePath :
    Replies (Report.Holds users cb s .reqRemovePath) (reqRemovePath cb s) := by
  apply replies_orUndefined
  intro name _
  split
  · exact replies_result (by decide)
  apply replies_sys rfl
  intro (file : Bool)
  split
  · exact replies_result (by decide)
  refine replies_bind (proceeds_removeDirectory _) fun _ removed _ _ => ?_
  cases removed <;> exact replies_result (by decide)

theorem replies_reqMkdir : Replies (Report.Holds users cb s .reqMkdir) (reqMkdir cb s) := by
  apply replies_orUndefined
  intro name _
  split
  · exact replies_result (by decide)
  apply replies_sys rfl
  intro (made : Bool)
  cases made <;> exact replies_result (by decide)

/-- The listing is of the directory as the call found it. -/
theorem replies_reqFileList : Replies (Report.Holds users cb s .reqFileList) (reqFileList s) := by
  refine replies_bind (proceeds_createFileListPacket _ _) fun before p run names => ?_
  have hsize := (ends_createFileListPacket _ _).returns run
  obtain ⟨entries, rfl, rfl⟩ := exec_createFileListPacket run
  have terminated : ∀ name ∈ entries.getD [], 0 ∉ name := by
    cases entries with
    | none => simp
    | some listed => exact names _ List.mem_cons_self _ listed rfl
  refine replies_respond (conveys_fileList s.tls terminated) (by decide) (Nat.le_refl _) hsize ?_
  exact ⟨rfl, entries, List.mem_append_left _ List.mem_cons_self, rfl⟩

/-- The name is that of the request, and the number of chunks that of the opened file. -/
theorem replies_reqFileOpen :
    Replies (Report.Holds users cb s .reqFileOpen) (reqFileOpen cb s) := by
  apply replies_orUndefined
  intro name hdecode
  split
  · exact replies_result (by decide)
  apply replies_orUndefined
  intro filePath _
  apply replies_sys rfl
  intro (file : Int)
  split
  · exact replies_result (by decide)
  apply replies_sys rfl
  rintro (_ | fileSize)
  · exact replies_result (by decide)
  have hfits : name.length < maxFilenameLen := Buffer.length_lt_of_cString hdecode
  refine replies_respond (conveys_chunkInfo s.tls (zero_notMem_of_cString hdecode) hfits)
    (by decide) (Nat.le_refl _) ?_ ⟨rfl, hdecode, fileSize, by simp, rfl⟩
  simp [createChunkInfoPacket, Buffer.totalSize_write, sizeofPacketDownloadedFileInfo]

theorem replies_reqFileClose :
    Replies (Report.Holds users cb s .reqFileClose) (reqFileClose s) := by
  apply replies_sys rfl
  intro (closed : Int)
  split
  · exact replies_sys rfl fun _ => replies_result (by decide)
  · exact replies_result (by decide)

theorem replies_reqFileTransferStart :
    Replies (Report.Holds users cb s .reqFileTransferStart) (reqFileTransferStart cb s) := by
  apply replies_orUndefined
  intro name _
  split
  · exact replies_result (by decide)
  · exact replies_sys rfl fun _ => replies_result (by decide)

theorem replies_writeFileData {ty answer : PacketType} (h : answer ∈ ty.results) :
    Replies (Report.Holds users cb s ty) (writeFileData answer cb s) :=
  replies_sys rfl fun _ => replies_result h

theorem replies_transferPath {ty : PacketType} {operation : Str → Str → ServerProg Bool}
    (hok : .respOk ∈ ty.results) (herror : .respIoError ∈ ty.results)
    (h : ∀ source destination, Judged (Proceeds 0 True) (operation source destination)) :
    Replies (Report.Holds users cb s ty) (transferPath operation cb s) := by
  apply replies_orUndefined
  intro inPacket _
  refine replies_canonical fun _ userDirPath => replies_canonical fun _ currentDirPath =>
    replies_canonical fun _ source => replies_canonical fun _ destination => ?_
  refine replies_bind (proceeds_isPathWithinUserDir _ _) fun _ sourceInside _ _ => ?_
  split
  · exact replies_result herror
  refine replies_bind (proceeds_isPathWithinUserDir _ _) fun _ destinationInside _ _ => ?_
  split
  · exact replies_result herror
  refine replies_bind (h _ _) fun _ done _ _ => ?_
  cases done
  · exact replies_result herror
  · exact replies_result hok

theorem replies_reqCompress (fuel : Nat) :
    Replies (Report.Holds users cb s .reqCompress) (reqCompress fuel cb s) := by
  apply replies_orUndefined
  intro archiveName _
  refine replies_bind (proceeds_filesToCompress trivial _ _) ?_
  rintro _ (_ | files) _ _
  · exact replies_result (by decide)
  have compresses : Judged (Proceeds fuel True) (compressWith fuel _ files _ _) :=
    proceeds_compressWith trivial (PacketCompress.format cb.buffer) files
      (s.session.path archiveName) (getCompressionLevel (PacketCompress.compressionLevel cb.buffer)
        (PacketCompress.format cb.buffer))
  refine replies_bind (proceeds_mono (Nat.zero_le fuel) compresses) fun _ success _ _ => ?_
  cases success <;> exact replies_result (by decide)

/-- The responses that go through `handle_response_packet`. -/
def PacketType.isReported : PacketType → Bool
  | .reqCrcVerify | .reqFileDownloadChunk => false
  | _ => true

theorem handlers_reply {fuel : Nat} {receiveBuffer : Buffer} {ty : PacketType}
    {handler : HandlerState → ServerProg HandlerState}
    (h : handlers users fuel receiveBuffer cb ty = some handler) (hty : ty.isReported = true)
    (strings : StringSession s.session)
    (hfits : ty = .reqCurrentDirectory → s.session.currentDir.length < 512) :
    Replies (Report.Holds users cb s ty) (handler s) := by
  cases ty, handler, h using handlers_cases with
  | reqServerStatus => exact replies_reqServerStatus
  | reqConnectionsInfo => exact replies_reqConnectionsInfo
  | reqCrcVerify => cases hty
  | reqLogout => exact replies_reqLogout
  | reqCurrentDirectory => exact replies_reqCurrentDirectory strings (hfits rfl)
  | reqRemovePath => exact replies_reqRemovePath
  | reqMkdir => exact replies_reqMkdir
  | reqChangeWorkingDirectory => exact replies_reqChangeWorkingDirectory
  | reqFileOpen => exact replies_reqFileOpen
  | reqFileDownloadChunk => cases hty
  | reqFileClose => exact replies_reqFileClose
  | reqMoveFile => exact replies_transferPath (by decide) (by decide) proceeds_moveFile
  | reqCopyFile => exact replies_transferPath (by decide) (by decide) proceeds_copyFile
  | reqPing => exact replies_reqPing
  | reqGetCurrentUser => exact replies_reqGetCurrentUser strings
  | reqFileTransferStart => exact replies_reqFileTransferStart
  | reqFileTransferChunk => exact replies_writeFileData (by decide)
  | reqFileTransferEnd => exact replies_writeFileData (by decide)
  | reqGetSettings => exact replies_reqGetSettings
  | reqSetSetting => exact replies_reqSetSetting receiveBuffer
  | reqFileList => exact replies_reqFileList
  | reqLogin => exact replies_reqLogin
  | reqCompress => exact replies_reqCompress fuel
  | reqClean => exact replies_reqClean

/-- Without a login the answer is that. -/
theorem dispatch_replies {fuel : Nat} {receiveBuffer : Buffer} {ty : PacketType}
    (hty : ty.isReported = true) (strings : StringSession s.session)
    (hfits : ty = .reqCurrentDirectory → s.session.currentDir.length < 512) :
    Replies (Report.Holds users cb s ty) (dispatch users fuel ty receiveBuffer cb s) := by
  intro events out run
  rcases dispatch_cases run with ⟨hgate, hid, refused⟩ | ⟨-, -, rfl, rfl⟩ | ⟨handler, -, h, run⟩
  · exact replies_sendSampleResp rfl (fun _ => ⟨hgate, hid⟩) events out refused
  · exact fun _ => nofun
  · exact handlers_reply h hty strings hfits events out run

end Handlers

/-! ### Runs -/

/-- The answer to a request of this step is its last call, it sends no other, and what the
client makes of it holds. A path of 512 bytes does not fit its field. -/
def ResponseHolds (users : DatabaseHandler) (m : Move RequestState RequestLabel) : Prop :=
  ∀ c ty receiveBuffer cb tls events t session,
    m.label = .packet c ty receiveBuffer cb tls events (.ok t) → m.pre.live c = some session →
    ty.isReported = true →
    (ty = .reqCurrentDirectory → session.currentDir.length < 512) → NamesEnd events →
    ∃ before frame report, events = before ++ [⟨.send frame, ()⟩] ∧ sends before = [] ∧
      ReportedAs frame report ∧ report.Holds users cb ⟨session, m.pre.g, tls⟩ ty before t

theorem responseHolds_step {users : DatabaseHandler} {w v : RequestState} {l : RequestLabel}
    (step : RequestStep users w l v)
    (strings : ∀ c session, w.live c = some session → StringSession session) :
    ResponseHolds users ⟨w, l, v⟩ := by
  rintro c ty receiveBuffer cb tls events t session rfl hlive hty hfits names
  obtain ⟨fuel, _, hlive', run, -, -⟩ := step.packet_inv
  cases hlive.symm.trans hlive'
  exact dispatch_replies hty (strings c session hlive) hfits events _ run names t rfl

/-- In every run of the server, over UUIDs that are strings of at most 254 bytes: a served request
is answered with one frame, its last call, of which the client makes one report, and the report
holds of the session and of the calls that were made. `ResponseHolds` leaves out the two
requests whose answer the client does not print, a directory that does not fit its field, and
names that the operating system gives with a NUL. -/
theorem responses_hold {users : DatabaseHandler}
    (huuid : ∀ row ∈ users.db.users, row.uuid.length < 255 ∧ 0 ∉ row.uuid)
    {moves : List (Move RequestState RequestLabel)} {w : RequestState}
    (run : Run (requestSystem users) .initial moves w) : ∀ m ∈ moves, ResponseHolds users m := by
  intro m hm
  obtain ⟨past, rest, rfl⟩ := List.append_of_mem hm
  obtain ⟨before, -, step⟩ := run.split
  exact responseHolds_step step (stringSession_of_reachable huuid ⟨_, _, rfl, before⟩)

/-- The root of the example users logs in and asks who it is. -/
theorem responses_hold_root :
    ∃ moves w frame, Run (requestSystem exampleUsers) .initial moves w ∧
      (∃ m ∈ moves, ∃ t, m.label = .packet 0 .reqGetCurrentUser Buffer.zero ⟨0, []⟩ Buffer.zero
        [⟨.send frame, ()⟩] (.ok t)) ∧ ∀ m ∈ moves, ResponseHolds exampleUsers m := by
  obtain ⟨moves, w, login, running, hlive, -⟩ := exists_rootLogin_requests
  have asked : RequestStep exampleUsers w
      (.packet 0 .reqGetCurrentUser Buffer.zero ⟨0, []⟩ Buffer.zero _ _) _ :=
    .packet 0 hlive (exec_respond ⟨rootSession, w.g, Buffer.zero⟩ _ _) (by simp)
  have run := login.append (.one ⟨running, asked⟩)
  exact ⟨_, _, _, run, ⟨_, List.mem_append_right moves (List.mem_singleton.mpr rfl), _, rfl⟩,
    responses_hold (by decide) run⟩

end ConcurrentTcp
