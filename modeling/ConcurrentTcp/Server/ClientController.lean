import ConcurrentTcp.Db.Handler
import ConcurrentTcp.Server.PacketsUtils
import ConcurrentTcp.Server.Compression

/-!
Request handlers and their dispatch (`server/client_controller.cpp`).

A handler takes the extracted packet and the state it runs on. Only
`reqSetSetting` also reads the connection's receive buffer, which is therefore a
separate argument there and of the dispatch: `getPacketType` takes the packet
type from the receive buffer too.
-/

namespace ConcurrentTcp

open Interaction

/-- A path below the working directory: `current_dir + '/' + name`. -/
def Session.path (session : Session) (name : Str) : Str := session.currentDir ++ slash :: name

/-! ### Administration -/

def reqServerStatus (s : HandlerState) : ServerProg HandlerState :=
  if !s.session.isAdmin then sendRespNotAdmin s
  else do
    let p ← createServerStatusPacket s.tls
    s.respond p sizeofServerStatusPacket

def reqConnectionsInfo (s : HandlerState) : ServerProg HandlerState :=
  if !s.session.isAdmin then sendRespNotAdmin s
  else do
    let p ← createConnectionsInfoPacket s.tls
    s.respond p sizeofPacketConnectionsInfo

/-- The answer has the size of a file list. -/
def reqGetSettings (s : HandlerState) : ServerProg HandlerState :=
  if !s.session.isAdmin then sendRespNotAdmin s
  else s.respond (createSettingsRespPacket s.g s.tls) sizeofPacketFileList

/-- The request is read from the receive buffer of the connection. -/
def reqSetSetting (receiveBuffer : Buffer) (s : HandlerState) : ServerProg HandlerState :=
  if !s.session.isAdmin then sendRespNotAdmin s
  else
    let g := parseSetingPacketAndSet (SetSettingPacket.decode receiveBuffer) s.g
    sendSampleResp { s with g := g } .respOk

/-- The loop of the clean handler: whether every directory was removed. -/
def cleanEntries (userDir : Str) : List DirEntry → ServerProg Bool
  | [] => .ret true
  | entry :: rest =>
      if entry.matching then do
        let userDirPath := userDir ++ [slash].intercalate (entry.names.map (·.name))
        let removed ← removeDirectory userDirPath
        if removed then cleanEntries userDir rest else .ret false
      else cleanEntries userDir rest

def reqClean (s : HandlerState) : ServerProg HandlerState :=
  if !s.session.isAdmin then sendRespNotAdmin s
  else do
    let userDir := ascii "./tmp/"
    let entries ← orThrow (← sys (.directoryIterator userDir))
    let cleaned ← cleanEntries userDir entries
    sendSampleResp s (if cleaned then .respOk else .respIoError)

/-! ### Login and logout -/

def reqLogout (s : HandlerState) : ServerProg HandlerState :=
  let g := if s.session.isAdmin then { s.g with bAdminConnected := false } else s.g
  sendSampleResp { s with g := g, session := { s.session with id := [] } } .respOk

/-- The session after `login` accepted the credentials. -/
def Session.loggedIn (session : Session) (users : DatabaseHandler) (username : Str) : Session :=
  let id := users.getID username
  { session with id := id, currentDir := serverFilesDir ++ slash :: id }

/-- The session after the login of a second admin is rejected. -/
def Session.rejected (session : Session) : Session :=
  { session with id := [], currentDir := [] }

/-- `g_state.b_admin_connected.exchange(true)` and `is_admin = true`. -/
def HandlerState.registerAdmin (s : HandlerState) : HandlerState :=
  { s with
    g := { s.g with bAdminConnected := true }
    session := { s.session with isAdmin := true } }

/-- The answer to an accepted login. -/
def sendLoggedIn (s : HandlerState) : ServerProg HandlerState :=
  s.respond (createLoggedInPacket s.session.isAdmin s.tls) sizeofLoggedInPacket

def reqLogin (users : DatabaseHandler) (cb : ConnectionBuffer) (s : HandlerState) :
    ServerProg HandlerState := do
  let inPacket ← orUndefined (PacketLogin.decode cb.buffer)
  if users.login inPacket.username inPacket.password then
    let s := { s with session := s.session.loggedIn users inPacket.username }
    let _ ← sys (.mkdir s.session.currentDir)
    if users.isAdmin inPacket.username then
      if s.g.bAdminConnected then
        sendSampleResp { s with session := s.session.rejected } .respAdminAlreadyConnected
      else sendLoggedIn s.registerAdmin
    else sendLoggedIn s
  else sendSampleResp s .respBadLogin

def reqPing (s : HandlerState) : ServerProg HandlerState := sendSampleResp s .respPong

def reqGetCurrentUser (s : HandlerState) : ServerProg HandlerState :=
  s.respond (createCurrentUserPacket s.session.id s.tls) sizeofPacketCurrentUser

/-! ### Directories -/

def reqCurrentDirectory (s : HandlerState) : ServerProg HandlerState :=
  s.respond (createCurrentDirPacket s.session.currentDir s.tls) sizeofPacketCurrentDirectory

def reqChangeWorkingDirectory (cb : ConnectionBuffer) (s : HandlerState) :
    ServerProg HandlerState := do
  let path ← orUndefined (PacketCurrentDirectory.decodePath cb.buffer)
  let newDir ← cdCommand s.session.currentDir path
  if newDir = [] then sendSampleResp s .respIoError
  else sendSampleResp { s with session := { s.session with currentDir := newDir } } .respOk

def reqRemovePath (cb : ConnectionBuffer) (s : HandlerState) : ServerProg HandlerState := do
  let name ← orUndefined (PacketCurrentDirectory.decodePath cb.buffer)
  if !isValidFilename name then sendSampleResp s .respIoError
  else
    let path := s.session.path name
    let file ← removeFile path
    if file then sendSampleResp s .respOk
    else
      let directory ← removeDirectory path
      sendSampleResp s (if directory then .respOk else .respIoError)

def reqMkdir (cb : ConnectionBuffer) (s : HandlerState) : ServerProg HandlerState := do
  let name ← orUndefined (PacketCurrentDirectory.decodePath cb.buffer)
  if !isValidFilename name then sendSampleResp s .respIoError
  else
    let made : Bool ← sys (.mkdir (s.session.path name))
    sendSampleResp s (if made then .respOk else .respIoError)

def reqFileList (s : HandlerState) : ServerProg HandlerState := do
  let p ← createFileListPacket s.session.currentDir s.tls
  s.respond p sizeofPacketFileList

/-! ### Download -/

/-- `char file_path[512]` -/
def sizeofFilePath : Nat := 512

/-- `sprintf` of the path into `file_path`: without room for the terminator it
writes past the array. -/
def sprintfPath (session : Session) (name : Str) : Option Str :=
  let path := session.path name
  if path.length < sizeofFilePath then some path else none

def reqFileOpen (cb : ConnectionBuffer) (s : HandlerState) : ServerProg HandlerState := do
  let name ← orUndefined (PacketDownloadFile.decodePath cb.buffer)
  if !isValidFilename name then sendSampleResp s .respIoError
  else
    let filePath ← orUndefined (sprintfPath s.session name)
    let file : Int ← sys (.openFile filePath false)
    if file ≤ 0 then sendSampleResp s .respIoError
    else
      match ← sys (.fstat file) with
      | none => sendSampleResp s .respIoError
      | some fileSize =>
          let chunkCount := fileSize / maxChunkSize + (if fileSize % maxChunkSize ≠ 0 then 1 else 0)
          let s := { s with session := { s.session with downloadFd := file } }
          s.respond (createChunkInfoPacket s.tls chunkCount name) sizeofPacketDownloadedFileInfo

/-- After the error answer the handler goes on to send the buffer again. -/
def reqFileDownloadChunk (cb : ConnectionBuffer) (s : HandlerState) : ServerProg HandlerState := do
  let chunkIndex := PacketDownloadChunk.decodeChunkIndex cb.buffer
  let (output, p) ← createChunkPacket s.tls chunkIndex s.session.downloadFd
  let s := { s with tls := p }
  if output < 0 then
    let s ← sendSampleResp { s with session := { s.session with downloadFd := 0 } } .respIoError
    s.respond s.tls s.tls.totalSize
  else s.respond s.tls s.tls.totalSize

def reqFileClose (s : HandlerState) : ServerProg HandlerState := do
  let closed : Int ← sys (.close s.session.downloadFd)
  if closed < 0 then
    let _ ← sys (.close s.session.downloadFd)
    sendSampleResp { s with session := { s.session with downloadFd := 0 } } .respIoError
  else sendSampleResp s .respOk

/-! ### Upload -/

/-- `snprintf` of the path into `file_path` keeps what fits. -/
def snprintfPath (session : Session) (name : Str) : Str :=
  (session.path name).take (sizeofFilePath - 1)

/-- The descriptor is stored whether or not `open` succeeded. -/
def reqFileTransferStart (cb : ConnectionBuffer) (s : HandlerState) : ServerProg HandlerState := do
  let name ← orUndefined (PacketTransferFileStart.decodeFileName cb.buffer)
  if !isValidFilename name then sendSampleResp s .respIoError
  else
    let file : Int ← sys (.openFile (snprintfPath s.session name) true)
    sendSampleResp { s with session := { s.session with fd := file } } .respContinue

/-- `in_packet.header.total_size - sizeof(PacketHeader)` in `size_t`. -/
def payloadLength (cb : ConnectionBuffer) : Nat :=
  (cb.buffer.totalSize + 2 ^ 64 - sizeofPacketHeader) % 2 ^ 64

/-- `in_packet.file_data` -/
def fileData (cb : ConnectionBuffer) : Buffer := fun i => cb.buffer (sizeofPacketHeader + i)

/-- The chunk and the end handler differ in their answer only. -/
def writeFileData (answer : PacketType) (cb : ConnectionBuffer) (s : HandlerState) :
    ServerProg HandlerState := do
  let _ ← sys (.write s.session.fd (fileData cb) (payloadLength cb))
  sendSampleResp s answer

def reqFileTransferChunk : ConnectionBuffer → HandlerState → ServerProg HandlerState :=
  writeFileData .respContinue

def reqFileTransferEnd : ConnectionBuffer → HandlerState → ServerProg HandlerState :=
  writeFileData .respFileTransferOk

/-! ### Move and copy -/

/-- The move and the copy handler differ in the operation only, which answers
whether it succeeded. -/
def transferPath (operation : Str → Str → ServerProg Bool) (cb : ConnectionBuffer)
    (s : HandlerState) : ServerProg HandlerState := do
  let inPacket ← orUndefined (PacketMoveFile.decode cb.buffer)
  let userDir := ascii "./tmp/" ++ s.session.id
  let userDirPath ← orThrow (← sys (.weaklyCanonical userDir))
  let currentDirPath ← orThrow (← sys (.weaklyCanonical s.session.currentDir))
  let source ← orThrow
    (← sys (.weaklyCanonical (fsAppend currentDirPath.string inPacket.firstPath)))
  let destination ← orThrow
    (← sys (.weaklyCanonical (fsAppend currentDirPath.string inPacket.secondPath)))
  let sourceInside ← isPathWithinUserDir source.string userDirPath.string
  if !sourceInside then sendSampleResp s .respIoError
  else
    let destinationInside ← isPathWithinUserDir destination.string userDirPath.string
    if !destinationInside then sendSampleResp s .respIoError
    else
      let done ← operation source.string destination.string
      sendSampleResp s (if done then .respOk else .respIoError)

def reqMoveFile : ConnectionBuffer → HandlerState → ServerProg HandlerState :=
  transferPath moveFile

/-- The exception of `copy_file` is not caught. -/
def reqCopyFile : ConnectionBuffer → HandlerState → ServerProg HandlerState :=
  transferPath fun source destination => do
    orThrow (← sys (.copyFile source destination))

/-! ### Compression -/

/-- The names in the packet as paths, while each of them exists. -/
def listedFiles (session : Session) (p : Buffer) (files : List Str) :
    List Nat → ServerProg (Option (List Str))
  | [] => .ret (some files)
  | i :: rest => do
      let name ← orUndefined (PacketCompress.fileName p i)
      let found ← doesFileExist (session.path name)
      if !found then .ret none
      else listedFiles session p (files ++ [session.path name]) rest

/-- `files_to_compress`; `none` when a listed file does not exist. -/
def filesToCompress (session : Session) (p : Buffer) : ServerProg (Option (List Str)) :=
  if PacketCompress.compressAll p then do
    let entries ← orThrow (← sys (.recursiveDirectoryIterator (session.currentDir ++ [slash])))
    let regular := entries.filter (·.matching)
    .ret (some (regular.map fun e => session.currentDir ++ slashed (e.names.map (·.name))))
  else listedFiles session p [] (List.range (PacketCompress.fileCount p))

def compressWith (fuel : Nat) (format : Option Format) (files : List Str)
    (archivePath : Str) (compressionLevel : Int) : ServerProg Bool :=
  match format with
  | some .zstd => compressWithZstd fuel files archivePath compressionLevel
  | some .gzip => compressWithGzip fuel files archivePath compressionLevel
  | some .xz | some .lzma => compressWithXz fuel files archivePath compressionLevel
  | some .lz4 => compressWithLz4 fuel files archivePath compressionLevel
  | some .zip => compressWithZip files archivePath compressionLevel
  | none => .ret false

def reqCompress (fuel : Nat) (cb : ConnectionBuffer) (s : HandlerState) :
    ServerProg HandlerState := do
  let p := cb.buffer
  let archiveName ← orUndefined (PacketCompress.archiveName p)
  let archivePath := s.session.path archiveName
  match ← filesToCompress s.session p with
  | none => sendSampleResp s .respIoError
  | some files =>
      let format := PacketCompress.format p
      let level := getCompressionLevel (PacketCompress.compressionLevel p) format
      let success ← compressWith fuel format files archivePath level
      sendSampleResp s (if success then .respCompress else .respIoError)

/-! ### Dispatch -/

/-- `ClientController::handlers`: the slot of each packet type, `none` when it is
empty. -/
def handlers (users : DatabaseHandler) (fuel : Nat) (receiveBuffer : Buffer)
    (cb : ConnectionBuffer) : PacketType → Option (HandlerState → ServerProg HandlerState)
  | .reqServerStatus => some reqServerStatus
  | .reqConnectionsInfo => some reqConnectionsInfo
  | .reqCrcVerify => some .ret
  | .reqLogout => some reqLogout
  | .reqCurrentDirectory => some reqCurrentDirectory
  | .reqRemovePath => some (reqRemovePath cb)
  | .reqMkdir => some (reqMkdir cb)
  | .reqChangeWorkingDirectory => some (reqChangeWorkingDirectory cb)
  | .reqFileOpen => some (reqFileOpen cb)
  | .reqFileDownloadChunk => some (reqFileDownloadChunk cb)
  | .reqFileClose => some reqFileClose
  | .reqMoveFile => some (reqMoveFile cb)
  | .reqCopyFile => some (reqCopyFile cb)
  | .reqPing => some reqPing
  | .reqGetCurrentUser => some reqGetCurrentUser
  | .reqFileTransferStart => some (reqFileTransferStart cb)
  | .reqFileTransferChunk => some (reqFileTransferChunk cb)
  | .reqFileTransferEnd => some (reqFileTransferEnd cb)
  | .reqGetSettings => some reqGetSettings
  | .reqSetSetting => some (reqSetSetting receiveBuffer)
  | .reqFileList => some reqFileList
  | .reqLogin => some (reqLogin users cb)
  | .reqCompress => some (reqCompress fuel cb)
  | .reqClean => some reqClean
  | _ => none

/-- The rows of the table, one by one. -/
theorem handlers_cases {users : DatabaseHandler} {fuel : Nat} {receiveBuffer : Buffer}
    {cb : ConnectionBuffer} {motive : (ty : PacketType) →
      (handler : HandlerState → ServerProg HandlerState) →
      handlers users fuel receiveBuffer cb ty = some handler → Prop}
    (reqServerStatus : motive .reqServerStatus reqServerStatus rfl)
    (reqConnectionsInfo : motive .reqConnectionsInfo reqConnectionsInfo rfl)
    (reqCrcVerify : motive .reqCrcVerify .ret rfl)
    (reqLogout : motive .reqLogout reqLogout rfl)
    (reqCurrentDirectory : motive .reqCurrentDirectory reqCurrentDirectory rfl)
    (reqRemovePath : motive .reqRemovePath (reqRemovePath cb) rfl)
    (reqMkdir : motive .reqMkdir (reqMkdir cb) rfl)
    (reqChangeWorkingDirectory :
      motive .reqChangeWorkingDirectory (reqChangeWorkingDirectory cb) rfl)
    (reqFileOpen : motive .reqFileOpen (reqFileOpen cb) rfl)
    (reqFileDownloadChunk : motive .reqFileDownloadChunk (reqFileDownloadChunk cb) rfl)
    (reqFileClose : motive .reqFileClose reqFileClose rfl)
    (reqMoveFile : motive .reqMoveFile (reqMoveFile cb) rfl)
    (reqCopyFile : motive .reqCopyFile (reqCopyFile cb) rfl)
    (reqPing : motive .reqPing reqPing rfl)
    (reqGetCurrentUser : motive .reqGetCurrentUser reqGetCurrentUser rfl)
    (reqFileTransferStart : motive .reqFileTransferStart (reqFileTransferStart cb) rfl)
    (reqFileTransferChunk : motive .reqFileTransferChunk (reqFileTransferChunk cb) rfl)
    (reqFileTransferEnd : motive .reqFileTransferEnd (reqFileTransferEnd cb) rfl)
    (reqGetSettings : motive .reqGetSettings reqGetSettings rfl)
    (reqSetSetting : motive .reqSetSetting (reqSetSetting receiveBuffer) rfl)
    (reqFileList : motive .reqFileList reqFileList rfl)
    (reqLogin : motive .reqLogin (reqLogin users cb) rfl)
    (reqCompress : motive .reqCompress (reqCompress fuel cb) rfl)
    (reqClean : motive .reqClean reqClean rfl)
    (ty : PacketType) (handler : HandlerState → ServerProg HandlerState)
    (h : handlers users fuel receiveBuffer cb ty = some handler) : motive ty handler h := by
  cases ty <;> cases h <;> assumption

/-- `ConnectionBuffer::get_packet_type` reads the receive buffer of the
connection, and takes bytes above `RESP_FILE_LIST` for `REQ_SET_SETTING`. -/
def getPacketType (receiveBuffer : Buffer) : PacketType :=
  if receiveBuffer.command > PacketType.respFileList.toByte then .reqSetSetting
  else (PacketType.ofByte? receiveBuffer.command).getD .reqSetSetting

/-- Requests that are served without a login. -/
def PacketType.needsNoLogin : PacketType → Bool
  | .reqLogin | .reqPing | .reqLogout => true
  | _ => false

/-- `process_packet` once the packet type is known. -/
def dispatch (users : DatabaseHandler) (fuel : Nat) (packetType : PacketType)
    (receiveBuffer : Buffer) (cb : ConnectionBuffer) (s : HandlerState) :
    ServerProg HandlerState :=
  if !packetType.needsNoLogin && s.session.id.isEmpty then sendRespUnauthorized s
  else
    match handlers users fuel receiveBuffer cb packetType with
    | some handler => handler s
    | none => .fail .badFunctionCall

/-- With a login, the handler of the packet type runs. -/
theorem dispatch_authorized {users : DatabaseHandler} {fuel : Nat} {packetType : PacketType}
    {receiveBuffer : Buffer} {cb : ConnectionBuffer} {s : HandlerState}
    {handler : HandlerState → ServerProg HandlerState} (hid : s.session.id ≠ [])
    (hhandler : handlers users fuel receiveBuffer cb packetType = some handler) :
    dispatch users fuel packetType receiveBuffer cb s = handler s := by
  unfold dispatch
  rw [if_neg (by simp [hid]), hhandler]

/-- `ClientController::process_packet` -/
def processPacket (users : DatabaseHandler) (fuel : Nat) (receiveBuffer : Buffer)
    (cb : ConnectionBuffer) (s : HandlerState) : ServerProg HandlerState :=
  dispatch users fuel (getPacketType receiveBuffer) receiveBuffer cb s

end ConcurrentTcp
