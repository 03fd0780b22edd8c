import ConcurrentTcp.Base.Accesses
import ConcurrentTcp.Server.AdminPrivilege
import ConcurrentTcp.Server.ClientController

/-!
What the handlers read of a packet.

Each handler that decodes a packet is written out again with a note of every field it reads
as a C string, and of the bytes it passes to `write`. `erase_dispatchReads` says that these
are the handlers, with notes. None of them looks for the terminator of a field, so they stay
in their fields exactly when the packet is refused before, or is terminated throughout
(`reads_within_iff`).
-/

namespace ConcurrentTcp

open Interaction NotedProg

/-! ### Fields -/

/-- The members of the request structures that are read as C strings. -/
inductive Field where
  | username
  | password
  | path
  | downloadPath
  | uploadFileName
  | firstPath
  | secondPath
  | archiveName
  | fileName (i : Nat)
deriving DecidableEq, Repr

namespace Field

def offset : Field → Nat
  | username | path | downloadPath | firstPath => 4
  | password => 68
  | uploadFileName => 20
  | secondPath => 516
  | archiveName => 8 + maxFilenameLen * maxFiles
  | fileName i => 8 + maxFilenameLen * i

/-- The size of the array. -/
def length : Field → Nat
  | username | password => 64
  | path | firstPath | secondPath => 512
  | downloadPath => 255
  | uploadFileName | archiveName | fileName _ => maxFilenameLen

/-- Where the object ends in which the handler reads: the packet buffer for a login, and a
copy of the structure for the others. -/
def objectSize : Field → Nat
  | username | password => uint16Max
  | path => sizeofPacketCurrentDirectory
  | downloadPath => sizeofPacketDownloadFile
  | uploadFileName => sizeofPacketTransferFileStart
  | firstPath | secondPath => sizeofPacketMoveFile
  | archiveName | fileName _ => sizeofPacketCompress

/-- `file_names` has `MAX_FILES` elements. -/
def Exists : Field → Prop
  | fileName i => i < maxFiles
  | _ => True

/-- What is read: up to the first NUL from the offset on. -/
def decode (f : Field) (b : Buffer) : Option Str := b.cString f.offset (f.objectSize - f.offset)

/-- The field is there and has a terminator. -/
def Terminated (f : Field) (b : Buffer) : Prop :=
  f.Exists ∧ (b.cString f.offset f.length).isSome

/-- A field does not reach beyond its object. -/
theorem offset_add_length_le {f : Field} (h : f.Exists) : f.offset + f.length ≤ f.objectSize := by
  cases f with
  | fileName i =>
      simp only [Exists, maxFiles] at h
      simp only [offset, length, objectSize, maxFilenameLen, sizeofPacketCompress]
      omega
  | _ => decide

end Field

/-- An access to the packet: a field, or `file_data` with a length. -/
inductive PacketAccess where
  | cString (field : Field)
  | fileData (count : Nat)

/-- The access stays in the field. -/
def PacketAccess.InField (b : Buffer) : PacketAccess → Prop
  | .cString field => field.Terminated b
  | .fileData count => count ≤ uint16Max - sizeofPacketHeader

abbrev ReadProg (α : Type) : Type := NotedProg SysCall SysCall.Answer PacketAccess Fault α

/-- Read a field. -/
def readField (b : Buffer) (field : Field) : ReadProg Str :=
  .call (.access (.cString field)) fun _ => (orUndefined (field.decode b)).noted

/-! ### Handlers -/

def reqLoginReads (users : DatabaseHandler) (cb : ConnectionBuffer) (s : HandlerState) :
    ReadProg HandlerState := do
  let username ← readField cb.buffer .username
  let password ← readField cb.buffer .password
  Prog.noted <|
    if users.login username password then do
      let s := { s with session := s.session.loggedIn users username }
      let _ ← sys (.mkdir s.session.currentDir)
      if users.isAdmin username then
        if s.g.bAdminConnected then
          sendSampleResp { s with session := s.session.rejected } .respAdminAlreadyConnected
        else sendLoggedIn s.registerAdmin
      else sendLoggedIn s
    else sendSampleResp s .respBadLogin

def reqChangeWorkingDirectoryReads (cb : ConnectionBuffer) (s : HandlerState) :
    ReadProg HandlerState := do
  let path ← readField cb.buffer .path
  Prog.noted do
    let newDir ← cdCommand s.session.currentDir path
    if newDir = [] then sendSampleResp s .respIoError
    else sendSampleResp { s with session := { s.session with currentDir := newDir } } .respOk

def reqRemovePathReads (cb : ConnectionBuffer) (s : HandlerState) : ReadProg HandlerState := do
  let name ← readField cb.buffer .path
  Prog.noted <|
    if !isValidFilename name then sendSampleResp s .respIoError
    else do
      let path := s.session.path name
      let file ← removeFile path
      if file then sendSampleResp s .respOk
      else
        let directory ← removeDirectory path
        sendSampleResp s (if directory then .respOk else .respIoError)

def reqMkdirReads (cb : ConnectionBuffer) (s : HandlerState) : ReadProg HandlerState := do
  let name ← readField cb.buffer .path
  Prog.noted <|
    if !isValidFilename name then sendSampleResp s .respIoError
    else do
      let made : Bool ← sys (.mkdir (s.session.path name))
      sendSampleResp s (if made then .respOk else .respIoError)

def reqFileOpenReads (cb : ConnectionBuffer) (s : HandlerState) : ReadProg HandlerState := do
  let name ← readField cb.buffer .downloadPath
  Prog.noted <|
    if !isValidFilename name then sendSampleResp s .respIoError
    else do
      let filePath ← orUndefined (sprintfPath s.session name)
      let file : Int ← sys (.openFile filePath false)
      if file ≤ 0 then sendSampleResp s .respIoError
      else
        match ← sys (.fstat file) with
        | none => sendSampleResp s .respIoError
        | some fileSize =>
            let chunkCount :=
              fileSize / maxChunkSize + (if fileSize % maxChunkSize ≠ 0 then 1 else 0)
            let s := { s with session := { s.session with downloadFd := file } }
            s.respond (createChunkInfoPacket s.tls chunkCount name)
              sizeofPacketDownloadedFileInfo

def reqFileTransferStartReads (cb : ConnectionBuffer) (s : HandlerState) :
    ReadProg HandlerState := do
  let name ← readField cb.buffer .uploadFileName
  Prog.noted <|
    if !isValidFilename name then sendSampleResp s .respIoError
    else do
      let file : Int ← sys (.openFile (snprintfPath s.session name) true)
      sendSampleResp { s with session := { s.session with fd := file } } .respContinue

def writeFileDataReads (answer : PacketType) (cb : ConnectionBuffer) (s : HandlerState) :
    ReadProg HandlerState :=
  .call (.access (.fileData (payloadLength cb))) fun _ => (writeFileData answer cb s).noted

def transferPathReads (operation : Str → Str → ServerProg Bool) (cb : ConnectionBuffer)
    (s : HandlerState) : ReadProg HandlerState := do
  let firstPath ← readField cb.buffer .firstPath
  let secondPath ← readField cb.buffer .secondPath
  Prog.noted do
    let userDir := ascii "./tmp/" ++ s.session.id
    let userDirPath ← orThrow (← sys (.weaklyCanonical userDir))
    let currentDirPath ← orThrow (← sys (.weaklyCanonical s.session.currentDir))
    let source ← orThrow (← sys (.weaklyCanonical (fsAppend currentDirPath.string firstPath)))
    let destination ← orThrow
      (← sys (.weaklyCanonical (fsAppend currentDirPath.string secondPath)))
    let sourceInside ← isPathWithinUserDir source.string userDirPath.string
    if !sourceInside then sendSampleResp s .respIoError
    else
      let destinationInside ← isPathWithinUserDir destination.string userDirPath.string
      if !destinationInside then sendSampleResp s .respIoError
      else
        let done ← operation source.string destination.string
        sendSampleResp s (if done then .respOk else .respIoError)

def reqMoveFileReads : ConnectionBuffer → HandlerState → ReadProg HandlerState :=
  transferPathReads moveFile

def reqCopyFileReads : ConnectionBuffer → HandlerState → ReadProg HandlerState :=
  transferPathReads fun source destination => do
    orThrow (← sys (.copyFile source destination))

def listedFilesReads (session : Session) (p : Buffer) (files : List Str) :
    List Nat → ReadProg (Option (List Str))
  | [] => .ret (some files)
  | i :: rest => do
      let name ← readField p (.fileName i)
      let found ← (doesFileExist (session.path name)).noted
      if !found then .ret none
      else listedFilesReads session p (files ++ [session.path name]) rest

def filesToCompressReads (session : Session) (p : Buffer) : ReadProg (Option (List Str)) :=
  if PacketCompress.compressAll p then (filesToCompress session p).noted
  else listedFilesReads session p [] (List.range (PacketCompress.fileCount p))

/-- What the handler does with the files it has found. -/
def compressFound (fuel : Nat) (p : Buffer) (s : HandlerState) (archivePath : Str) :
    Option (List Str) → ServerProg HandlerState
  | none => sendSampleResp s .respIoError
  | some files => do
      let format := PacketCompress.format p
      let level := getCompressionLevel (PacketCompress.compressionLevel p) format
      let success ← compressWith fuel format files archivePath level
      sendSampleResp s (if success then .respCompress else .respIoError)

def reqCompressReads (fuel : Nat) (cb : ConnectionBuffer) (s : HandlerState) :
    ReadProg HandlerState := do
  let p := cb.buffer
  let archiveName ← readField p .archiveName
  let archivePath := s.session.path archiveName
  let found ← filesToCompressReads s.session p
  (compressFound fuel p s archivePath found).noted

/-- `ClientController::handlers`; those that are left out read no field. -/
def handlersReads (users : DatabaseHandler) (fuel : Nat) (receiveBuffer : Buffer)
    (cb : ConnectionBuffer) : PacketType → Option (HandlerState → ReadProg HandlerState)
  | .reqLogin => some (reqLoginReads users cb)
  | .reqChangeWorkingDirectory => some (reqChangeWorkingDirectoryReads cb)
  | .reqRemovePath => some (reqRemovePathReads cb)
  | .reqMkdir => some (reqMkdirReads cb)
  | .reqFileOpen => some (reqFileOpenReads cb)
  | .reqFileTransferStart => some (reqFileTransferStartReads cb)
  | .reqFileTransferChunk => some (writeFileDataReads .respContinue cb)
  | .reqFileTransferEnd => some (writeFileDataReads .respFileTransferOk cb)
  | .reqMoveFile => some (reqMoveFileReads cb)
  | .reqCopyFile => some (reqCopyFileReads cb)
  | .reqCompress => some (reqCompressReads fuel cb)
  | ty => (handlers users fuel receiveBuffer cb ty).map fun handler s => (handler s).noted

/-- `process_packet`, with notes. -/
def dispatchReads (users : DatabaseHandler) (fuel : Nat) (packetType : PacketType)
    (receiveBuffer : Buffer) (cb : ConnectionBuffer) (s : HandlerState) :
    ReadProg HandlerState :=
  if !packetType.needsNoLogin && s.session.id.isEmpty then (sendRespUnauthorized s).noted
  else
    match handlersReads users fuel receiveBuffer cb packetType with
    | some handler => handler s
    | none => .fail .badFunctionCall

/-! ### The notes change nothing -/

section Erase

variable {users : DatabaseHandler} {fuel : Nat} {receiveBuffer : Buffer} {cb : ConnectionBuffer}
  {s : HandlerState}

@[simp] theorem erase_readField (b : Buffer) (field : Field) :
    erase (readField b field) = orUndefined (field.decode b) :=
  erase_noted (orUndefined (field.decode b))

theorem erase_readField_noted {α : Type} (b : Buffer) (field : Field) (k : Str → ServerProg α) :
    erase (readField b field >>= fun value => (k value).noted) =
      orUndefined (field.decode b) >>= k := by
  simp

theorem orUndefined_bind {α β : Type} (x : Option α) (f : α → Option β) :
    orUndefined (x >>= f) = orUndefined x >>= fun a => orUndefined (f a) := by
  cases x <;> rfl

theorem erase_reqLoginReads : erase (reqLoginReads users cb s) = reqLogin users cb s := by
  simp only [reqLoginReads, erase_bind, erase_readField, erase_noted]
  unfold reqLogin PacketLogin.decode
  rw [orUndefined_bind, Prog.bind_assoc]
  congr 1
  funext username
  rw [orUndefined_bind, Prog.bind_assoc]
  rfl

theorem erase_transferPathReads (operation : Str → Str → ServerProg Bool) :
    erase (transferPathReads operation cb s) = transferPath operation cb s := by
  simp only [transferPathReads, erase_bind, erase_readField, erase_noted]
  unfold transferPath PacketMoveFile.decode
  rw [orUndefined_bind, Prog.bind_assoc]
  congr 1
  funext firstPath
  rw [orUndefined_bind, Prog.bind_assoc]
  rfl

theorem erase_listedFilesReads (session : Session) (p : Buffer) (files : List Str)
    (indices : List Nat) :
    erase (listedFilesReads session p files indices) = listedFiles session p files indices := by
  induction indices generalizing files with
  | nil => rfl
  | cons i rest ih =>
      simp only [listedFilesReads, erase_bind, erase_readField, erase_noted]
      unfold listedFiles
      congr 1
      funext name
      congr 1
      funext found
      cases found
      · rfl
      · exact ih _

theorem erase_filesToCompressReads (session : Session) (p : Buffer) :
    erase (filesToCompressReads session p) = filesToCompress session p := by
  unfold filesToCompressReads
  split
  · exact erase_noted _
  · rename_i hall
    rw [erase_listedFilesReads, filesToCompress, if_neg hall]

theorem erase_reqCompressReads :
    erase (reqCompressReads fuel cb s) = reqCompress fuel cb s := by
  simp only [reqCompressReads, erase_bind, erase_readField, erase_noted,
    erase_filesToCompressReads]
  rfl

/-- Without the notes, the handlers are those of the server. -/
theorem erase_dispatchReads (ty : PacketType) :
    erase (dispatchReads users fuel ty receiveBuffer cb s) =
      dispatch users fuel ty receiveBuffer cb s := by
  unfold dispatchReads dispatch
  split
  · exact erase_noted _
  · cases ty with
    | reqLogin => exact erase_reqLoginReads
    | reqMoveFile | reqCopyFile => exact erase_transferPathReads _
    | reqCompress => exact erase_reqCompressReads
    | reqChangeWorkingDirectory | reqRemovePath | reqMkdir | reqFileOpen
    | reqFileTransferStart => exact erase_readField_noted ..
    | _ => first | exact erase_noted _ | rfl

end Erase

/-! ### Reads in the fields -/

section Within

variable {users : DatabaseHandler} {fuel : Nat} {receiveBuffer : Buffer} {cb : ConnectionBuffer}
  {s : HandlerState}

/-- What is terminated in its field is read. -/
theorem Field.Terminated.decode {f : Field} {b : Buffer} (h : f.Terminated b) :
    ∃ value, f.decode b = some value := by
  obtain ⟨value, hvalue⟩ := Option.isSome_iff_exists.mp h.2
  have hfits := f.offset_add_length_le h.1
  exact ⟨value, Buffer.cString_mono (by omega) hvalue⟩

/-- Reading a field, and then going on. -/
theorem within_readField {α : Type} {b : Buffer} {field : Field} {k : Str → ReadProg α} :
    Within (PacketAccess.InField b) (readField b field >>= k) ↔
      field.Terminated b ∧
        ∀ value, field.decode b = some value → Within (PacketAccess.InField b) (k value) := by
  unfold readField
  rw [Prog.call_bind, within_access]
  apply and_congr Iff.rfl
  cases hdecode : field.decode b with
  | none => simp [orUndefined, Prog.noted]
  | some value => simp [orUndefined, Prog.noted]

/-- Reading a field, and nothing else. -/
theorem within_readField_noted {α : Type} {b : Buffer} {field : Field} {k : Str → ServerProg α} :
    Within (PacketAccess.InField b) (readField b field >>= fun value => (k value).noted) ↔
      field.Terminated b := by
  rw [within_readField]
  exact and_iff_left fun value _ => within_noted _

/-- Reading two fields, and nothing else. -/
theorem within_readField_two {α : Type} {b : Buffer} {first second : Field}
    {k : Str → Str → ServerProg α} :
    Within (PacketAccess.InField b) (readField b first >>= fun value =>
        readField b second >>= fun value' => (k value value').noted) ↔
      first.Terminated b ∧ second.Terminated b := by
  rw [within_readField]
  apply and_congr_right
  intro hfirst
  obtain ⟨value, hvalue⟩ := hfirst.decode
  constructor
  · intro h
    exact within_readField_noted.mp (h value hvalue)
  · intro hsecond value' _
    exact within_readField_noted.mpr hsecond

/-- The names are read one after the other while the files exist. -/
theorem within_listedFilesReads (session : Session) (p : Buffer) (files : List Str)
    (indices : List Nat) :
    Within (PacketAccess.InField p) (listedFilesReads session p files indices) ↔
      ∀ i ∈ indices, (Field.fileName i).Terminated p := by
  induction indices generalizing files with
  | nil => simp [listedFilesReads]
  | cons i rest ih =>
      rw [listedFilesReads, within_readField, List.forall_mem_cons]
      apply and_congr_right
      intro hfield
      obtain ⟨name, hname⟩ := hfield.decode
      constructor
      · intro h
        have found := within_op.mp (h name hname) (.ok true)
        exact (ih _).mp found
      · intro h name' _
        refine within_op.mpr fun ans => ?_
        rcases ans with error | found
        · cases error
          exact within_fail _
        · cases found
          · exact within_ret _
          · exact (ih _).mpr h

/-- What the handler of a packet type reads is terminated in its field. -/
def FieldsTerminated (ty : PacketType) (cb : ConnectionBuffer) : Prop :=
  match ty with
  | .reqLogin => Field.username.Terminated cb.buffer ∧ Field.password.Terminated cb.buffer
  | .reqChangeWorkingDirectory | .reqRemovePath | .reqMkdir => Field.path.Terminated cb.buffer
  | .reqFileOpen => Field.downloadPath.Terminated cb.buffer
  | .reqFileTransferStart => Field.uploadFileName.Terminated cb.buffer
  | .reqFileTransferChunk | .reqFileTransferEnd => sizeofPacketHeader ≤ cb.buffer.totalSize
  | .reqMoveFile | .reqCopyFile =>
      Field.firstPath.Terminated cb.buffer ∧ Field.secondPath.Terminated cb.buffer
  | .reqCompress =>
      Field.archiveName.Terminated cb.buffer ∧
        (PacketCompress.compressAll cb.buffer = true ∨
          ∀ i < PacketCompress.fileCount cb.buffer, (Field.fileName i).Terminated cb.buffer)
  | _ => True

/-- Whatever the calls answer, the handler reads in the fields only. -/
def ReadsWithin (users : DatabaseHandler) (fuel : Nat) (ty : PacketType)
    (receiveBuffer : Buffer) (cb : ConnectionBuffer) (s : HandlerState) : Prop :=
  Within (PacketAccess.InField cb.buffer) (dispatchReads users fuel ty receiveBuffer cb s)

theorem within_filesToCompressReads (session : Session) (p : Buffer) :
    Within (PacketAccess.InField p) (filesToCompressReads session p) ↔
      PacketCompress.compressAll p = true ∨
        ∀ i < PacketCompress.fileCount p, (Field.fileName i).Terminated p := by
  unfold filesToCompressReads
  split
  · rename_i hall
    exact iff_of_true (within_noted _) (.inl hall)
  · rename_i hall
    rw [within_listedFilesReads]
    simp [hall]

theorem within_reqCompressReads :
    Within (PacketAccess.InField cb.buffer) (reqCompressReads fuel cb s) ↔
      FieldsTerminated .reqCompress cb := by
  have hfiles : ∀ archivePath : Str,
      Within (PacketAccess.InField cb.buffer) (filesToCompressReads s.session cb.buffer >>=
        fun found => (compressFound fuel cb.buffer s archivePath found).noted) ↔ _ := fun _ =>
    (within_bind fun found => within_noted _).trans
      (within_filesToCompressReads s.session cb.buffer)
  unfold reqCompressReads
  dsimp only
  rw [within_readField]
  apply and_congr_right
  intro harchive
  obtain ⟨value, hvalue⟩ := harchive.decode
  constructor
  · intro h
    exact (hfiles _).mp (h value hvalue)
  · intro h value' _
    exact (hfiles _).mpr h

theorem payloadLength_le_iff :
    payloadLength cb ≤ uint16Max - sizeofPacketHeader ↔
      sizeofPacketHeader ≤ cb.buffer.totalSize := by
  have hsize := cb.buffer.totalSize_lt
  unfold payloadLength uint16Max sizeofPacketHeader
  omega

/-- No handler refuses a packet for its fields: it reads only in them when the packet is
refused without a login, or has the terminators, existing indices and the length that it
needs. -/
theorem reads_within_iff (ty : PacketType) :
    ReadsWithin users fuel ty receiveBuffer cb s ↔
      (ty.needsNoLogin = false ∧ s.session.id = []) ∨ FieldsTerminated ty cb := by
  unfold ReadsWithin dispatchReads
  by_cases hlogin : ty.needsNoLogin = false ∧ s.session.id = []
  · rw [if_pos (by simp [hlogin])]
    simp [hlogin]
  · rw [if_neg (by simpa using hlogin)]
    simp only [hlogin, false_or]
    cases ty with
    | reqLogin | reqMoveFile | reqCopyFile => exact within_readField_two
    | reqChangeWorkingDirectory | reqRemovePath | reqMkdir | reqFileOpen
    | reqFileTransferStart => exact within_readField_noted
    | reqFileTransferChunk | reqFileTransferEnd =>
        exact within_access.trans ((and_iff_left (within_noted _)).trans payloadLength_le_iff)
    | reqCompress => exact within_reqCompressReads
    | _ => simp [FieldsTerminated, handlersReads, handlers]

end Within

/-- A login without terminators: 128 bytes, none of them zero. -/
def unterminatedLogin : ConnectionBuffer :=
  ⟨0, [1, PacketType.reqLogin.toByte, 132, 0] ++ List.replicate 128 1⟩

/-- The username is read on into the password, and the password out of the structure. -/
theorem not_reads_unterminatedLogin :
    ¬ ReadsWithin exampleUsers 0 .reqLogin Buffer.zero unterminatedLogin
      ⟨.accepted 5, .initial, Buffer.zero⟩ := by
  intro within
  have terminated := (within_access.mp within).1
  exact absurd terminated.2 (by decide)

end ConcurrentTcp
