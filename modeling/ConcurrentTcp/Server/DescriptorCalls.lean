import ConcurrentTcp.Server.BackEndCalls
import ConcurrentTcp.Server.TransferCalls

/-!
Which requests work on descriptors.

Only the handlers of uploads and downloads open, use or close descriptors through their
connection. `dispatch_avoids` says this of all other requests, compressions included,
whose files are behind library calls.
-/

namespace ConcurrentTcp

open Interaction

/-- A call that opens, uses or closes a descriptor. -/
def SysCall.onDescriptor : SysCall → Bool
  | .openFile _ _ | .fstat _ | .lseek _ _ | .read _ _ | .write _ _ _ | .close _ => true
  | _ => false

/-- The program makes no call on descriptors, and returns as `Q` says. -/
abbrev Avoids {α : Type} (Q : α → Prop) (p : ServerProg α) : Prop :=
  Contract (fun _ => True) (fun e => e.op.onDescriptor = false) (onReturn Q) p

/-- The program makes no call on descriptors. -/
abbrev Abstains {α : Type} (p : ServerProg α) : Prop := Avoids (fun _ => True) p

section Rules

variable {α β : Type} {Q : β → Prop}

theorem avoids_call {call : SysCall} {next : call.Answer → ServerProg β}
    (h : call.onDescriptor = false) (later : ∀ ans, Avoids Q (next ans)) :
    Avoids Q (sys call >>= next) :=
  fun ans _ => ⟨h, later ans⟩

theorem avoids_bind {p : ServerProg α} {f : α → ServerProg β} (first : Abstains p)
    (second : ∀ a, Avoids Q (f a)) : Avoids Q (p >>= f) :=
  first.seq fun a _ => second a

theorem abstains_orThrow (a : Except FsError α) : Abstains (orThrow a) := by
  rcases a with ⟨⟨⟩⟩ | a
  · trivial
  · trivial

theorem abstains_orUndefined (a : Option α) : Abstains (orUndefined a) := by
  cases a with
  | none => trivial
  | some a => trivial

end Rules

/-! ### Compression -/

theorem BackEndCall.offDescriptor {files : List Str} {archiveBasePath : Str} {call : SysCall}
    (h : BackEndCall files archiveBasePath call) : call.onDescriptor = false := by
  cases h <;> rfl

theorem abstains_compressWith {fuel : Nat} {files : List Str} {archiveBasePath : Str} {level : Int}
    (format : Option Format) :
    Abstains (compressWith fuel format files archiveBasePath level) :=
  (archives_compressWith format).mono (fun _ h => h) (fun _ _ call => call.offDescriptor)
    fun _ h => h

/-! ### Other programs of the handlers -/

theorem abstains_doesFileExist (path : Str) : Abstains (doesFileExist path) :=
  avoids_call rfl fun _ => abstains_orThrow _

theorem abstains_listedFiles (session : Session) (p : Buffer) (files : List Str) (is : List Nat) :
    Abstains (listedFiles session p files is) := by
  induction is generalizing files with
  | nil => trivial
  | cons i rest ih =>
      apply avoids_bind (abstains_orUndefined _)
      intro name
      apply avoids_bind (abstains_doesFileExist _)
      intro found
      split
      · trivial
      · exact ih _

theorem abstains_filesToCompress (session : Session) (p : Buffer) :
    Abstains (filesToCompress session p) := by
  unfold filesToCompress
  split
  · exact avoids_call rfl fun _ => avoids_bind (abstains_orThrow _) fun entries => trivial
  · exact abstains_listedFiles session p [] _

theorem abstains_cdParts (pathParts parts : List Str) : Abstains (cdParts pathParts parts) := by
  induction parts generalizing pathParts with
  | nil => trivial
  | cons part rest ih =>
      unfold cdParts
      split
      · exact ih _
      split
      · refine avoids_call rfl fun _ => avoids_bind (abstains_orThrow _) fun found => ?_
        split
        · trivial
        refine avoids_call rfl fun _ => avoids_bind (abstains_orThrow _) fun directory => ?_
        split
        · trivial
        · exact ih _
      · exact ih _

theorem abstains_isPathWithinUserDir (path userDir : Str) :
    Abstains (isPathWithinUserDir path userDir) :=
  avoids_call rfl fun _ => avoids_bind (abstains_orThrow _) fun _ =>
    avoids_call rfl fun _ => avoids_bind (abstains_orThrow _) fun _ => trivial

theorem abstains_removeDirectory (path : Str) : Abstains (removeDirectory path) :=
  avoids_call rfl fun _ => avoids_bind (abstains_orThrow _) fun _ => trivial

theorem abstains_cleanEntries (userDir : Str) (entries : List DirEntry) :
    Abstains (cleanEntries userDir entries) := by
  induction entries with
  | nil => trivial
  | cons entry rest ih =>
      unfold cleanEntries
      split
      · apply avoids_bind (abstains_removeDirectory _)
        intro removed
        split
        · exact ih
        · trivial
      · exact ih

theorem abstains_moveFile (source destination : Str) : Abstains (moveFile source destination) := by
  refine avoids_call rfl fun (moved : Except FsError Unit) => ?_
  cases moved with
  | ok _ => trivial
  | error _ => trivial

theorem abstains_writeUserFileList (usersDir : Str) (p : Buffer) :
    Abstains (writeUserFileList usersDir p) := by
  refine avoids_call rfl fun (names : Option (List Str)) => ?_
  cases names with
  | none => trivial
  | some names => trivial

/-! ### Requests -/

/-- The descriptors that a session holds are as before. -/
structure SameDescriptors (s t : Session) : Prop where
  socketFd : t.socketFd = s.socketFd
  fd : t.fd = s.fd
  downloadFd : t.downloadFd = s.downloadFd

/-- The requests that work on descriptors. -/
def PacketType.isTransfer : PacketType → Bool
  | .reqFileTransferStart | .reqFileTransferChunk | .reqFileTransferEnd | .reqFileOpen
  | .reqFileDownloadChunk | .reqFileClose => true
  | _ => false

/-- The handler makes no call on descriptors and keeps those of its session. -/
abbrev KeepsDescriptors (session : Session) (p : ServerProg HandlerState) : Prop :=
  Avoids (fun t => SameDescriptors session t.session) p

section Requests

variable {session : Session} {s : HandlerState} {cb : ConnectionBuffer} {ty : PacketType}

theorem SameDescriptors.refl (session : Session) : SameDescriptors session session :=
  ⟨rfl, rfl, rfl⟩

theorem keeps_respond {p : Buffer} {length : Nat} (h : SameDescriptors session s.session) :
    KeepsDescriptors session (s.respond p length) :=
  fun _ _ => ⟨rfl, h⟩

theorem keeps_fail (e : Fault) : KeepsDescriptors session (.fail e) := trivial

theorem keeps_sample (h : SameDescriptors session s.session) :
    KeepsDescriptors session (sendSampleResp s ty) :=
  keeps_respond h

theorem keeps_admin {handler : ServerProg HandlerState}
    (later : KeepsDescriptors s.session handler) :
    KeepsDescriptors s.session (if !s.session.isAdmin then sendRespNotAdmin s else handler) := by
  split
  · exact keeps_sample (.refl _)
  · exact later

theorem keeps_reqLogin (users : DatabaseHandler) (cb : ConnectionBuffer) (s : HandlerState) :
    KeepsDescriptors s.session (reqLogin users cb s) := by
  apply avoids_bind (abstains_orUndefined _)
  intro inPacket
  split
  · refine avoids_call rfl fun _ => ?_
    split
    · split
      · exact keeps_sample ⟨rfl, rfl, rfl⟩
      · exact keeps_respond ⟨rfl, rfl, rfl⟩
    · exact keeps_respond ⟨rfl, rfl, rfl⟩
  · exact keeps_sample (.refl _)

theorem keeps_transferPath {operation : Str → Str → ServerProg Bool}
    (abstains : ∀ source destination, Abstains (operation source destination)) :
    KeepsDescriptors s.session (transferPath operation cb s) := by
  have canonical {path : Str} {next : FsPath → ServerProg HandlerState}
      (later : ∀ a, KeepsDescriptors s.session (next a)) :
      KeepsDescriptors s.session (do let a ← orThrow (← sys (.weaklyCanonical path)); next a) :=
    avoids_call rfl fun _ => avoids_bind (abstains_orThrow _) later
  apply avoids_bind (abstains_orUndefined _)
  intro inPacket
  apply canonical
  intro userDir
  apply canonical
  intro currentDir
  apply canonical
  intro source
  apply canonical
  intro destination
  apply avoids_bind (abstains_isPathWithinUserDir _ _)
  intro sourceInside
  split
  · exact keeps_sample (.refl _)
  apply avoids_bind (abstains_isPathWithinUserDir _ _)
  intro destinationInside
  split
  · exact keeps_sample (.refl _)
  · exact avoids_bind (abstains _ _) fun done => keeps_sample (.refl _)

theorem keeps_reqCompress (fuel : Nat) : KeepsDescriptors s.session (reqCompress fuel cb s) := by
  apply avoids_bind (abstains_orUndefined _)
  intro archiveName
  apply avoids_bind (abstains_filesToCompress _ _)
  intro files
  cases files with
  | none => exact keeps_sample (.refl _)
  | some files => exact avoids_bind (abstains_compressWith _) fun success => keeps_sample (.refl _)

/-- A handler that is not one of a transfer. -/
theorem handlers_avoid {users : DatabaseHandler} {fuel : Nat} {receiveBuffer : Buffer}
    {handler : HandlerState → ServerProg HandlerState}
    (hhandler : handlers users fuel receiveBuffer cb ty = some handler)
    (hty : ty.isTransfer = false) : KeepsDescriptors s.session (handler s) := by
  have same := SameDescriptors.refl s.session
  cases ty, handler, hhandler using handlers_cases with
  | reqServerStatus =>
      exact keeps_admin (avoids_call rfl fun _ => avoids_call rfl fun _ => avoids_call rfl fun _ =>
        keeps_respond same)
  | reqConnectionsInfo =>
      exact keeps_admin (avoids_call rfl fun _ => keeps_respond same)
  | reqCrcVerify => exact same
  | reqLogout => exact keeps_sample ⟨rfl, rfl, rfl⟩
  | reqCurrentDirectory => exact keeps_respond same
  | reqRemovePath =>
      apply avoids_bind (abstains_orUndefined _)
      intro name
      split
      · exact keeps_sample same
      refine avoids_call rfl fun file => ?_
      split
      · exact keeps_sample same
      · exact avoids_bind (abstains_removeDirectory _) fun directory => keeps_sample same
  | reqMkdir =>
      apply avoids_bind (abstains_orUndefined _)
      intro name
      split
      · exact keeps_sample same
      · exact avoids_call rfl fun made => keeps_sample same
  | reqChangeWorkingDirectory =>
      apply avoids_bind (abstains_orUndefined _)
      intro path
      apply avoids_bind (abstains_cdParts _ _)
      intro newDir
      split
      · exact keeps_sample same
      · exact keeps_sample ⟨rfl, rfl, rfl⟩
  | reqFileOpen => cases hty
  | reqFileDownloadChunk => cases hty
  | reqFileClose => cases hty
  | reqMoveFile => exact keeps_transferPath abstains_moveFile
  | reqCopyFile =>
      exact keeps_transferPath fun _ _ => avoids_call rfl fun _ => abstains_orThrow _
  | reqPing => exact keeps_sample same
  | reqGetCurrentUser => exact keeps_respond same
  | reqFileTransferStart => cases hty
  | reqFileTransferChunk => cases hty
  | reqFileTransferEnd => cases hty
  | reqGetSettings => exact keeps_admin (keeps_respond same)
  | reqSetSetting => exact keeps_admin (keeps_sample same)
  | reqFileList =>
      exact avoids_bind (avoids_bind (abstains_writeUserFileList _ _) fun _ => trivial) fun _ =>
        keeps_respond same
  | reqLogin => exact keeps_reqLogin users cb s
  | reqCompress => exact keeps_reqCompress fuel
  | reqClean =>
      exact keeps_admin (avoids_call rfl fun _ => avoids_bind (abstains_orThrow _) fun entries =>
        avoids_bind (abstains_cleanEntries _ _) fun _ => keeps_sample same)

theorem isTransfer_of_needsNoLogin (h : ty.needsNoLogin = true) : ty.isTransfer = false := by
  cases ty <;> first | rfl | cases h

/-- A request that is refused, or not one of a transfer. -/
theorem dispatch_avoids {users : DatabaseHandler} {fuel : Nat} {receiveBuffer : Buffer}
    (h : ty.isTransfer = false ∨ s.session.id = []) :
    KeepsDescriptors s.session (dispatch users fuel ty receiveBuffer cb s) := by
  unfold dispatch
  split
  · exact keeps_sample (.refl _)
  · rename_i hlogin
    have hty : ty.isTransfer = false := by
      rcases h with hty | hid
      · exact hty
      · exact isTransfer_of_needsNoLogin (by simpa [hid] using hlogin)
    cases hhandler : handlers users fuel receiveBuffer cb ty with
    | none => trivial
    | some handler => exact handlers_avoid hhandler hty

/-- An upload is refused, or its file is opened. -/
theorem exec_reqFileTransferStart_cases {events : List ServerEvent}
    {out : Except Fault HandlerState} (run : Exec (reqFileTransferStart cb s) events out) :
    (∃ p, KeepsDescriptors s.session p ∧ Exec p events out) ∨
      ∃ path, ∃ file : Int, events = [⟨.openFile path true, file⟩,
          ⟨.send (sampleFrame s.tls .respContinue), ()⟩] ∧
        out = .ok { s with
          session := { s.session with fd := file }
          tls := s.tls.setHeader .respContinue sizeofSamplePacket } := by
  cases hname : PacketTransferFileStart.decodeFileName cb.buffer with
  | none =>
      have fails : reqFileTransferStart cb s = .fail .undefinedBehaviour := by
        simp [reqFileTransferStart, hname, orUndefined]
      exact .inl ⟨_, keeps_fail _, fails ▸ run⟩
  | some name =>
      by_cases hvalid : isValidFilename name = true
      · obtain ⟨file, hevents, hout⟩ := (exec_reqFileTransferStart_iff hname hvalid).mp run
        exact .inr ⟨_, file, hevents, hout⟩
      · have refuses : reqFileTransferStart cb s = sendSampleResp s .respIoError := by
          simp [reqFileTransferStart, hname, hvalid, orUndefined]
        exact .inl ⟨_, keeps_sample (.refl _), refuses ▸ run⟩

/-- A download is refused, or its file is looked for. -/
theorem exec_reqFileOpen_cases {events : List ServerEvent} {out : Except Fault HandlerState}
    (run : Exec (reqFileOpen cb s) events out) :
    (∃ p, KeepsDescriptors s.session p ∧ Exec p events out) ∨
      ∃ name path t, out = .ok t ∧ FileOpenExec name path s events t := by
  cases hname : PacketDownloadFile.decodePath cb.buffer with
  | none =>
      have fails : reqFileOpen cb s = .fail .undefinedBehaviour := by
        simp [reqFileOpen, hname, orUndefined]
      exact .inl ⟨_, keeps_fail _, fails ▸ run⟩
  | some name =>
      by_cases hvalid : isValidFilename name = true
      · cases hpath : sprintfPath s.session name with
        | none =>
            have fails : reqFileOpen cb s = .fail .undefinedBehaviour := by
              simp [reqFileOpen, hname, hvalid, hpath, orUndefined]
            exact .inl ⟨_, keeps_fail _, fails ▸ run⟩
        | some path =>
            obtain ⟨t, hout, opens⟩ := (exec_reqFileOpen_iff hname hvalid hpath).mp run
            exact .inr ⟨name, path, t, hout, opens⟩
      · have refuses : reqFileOpen cb s = sendSampleResp s .respIoError := by
          simp [reqFileOpen, hname, hvalid, orUndefined]
        exact .inl ⟨_, keeps_sample (.refl _), refuses ▸ run⟩

end Requests

end ConcurrentTcp
