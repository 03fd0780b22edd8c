import ConcurrentTcp.Server.Io

/-!
Response builders (`server/packets_utils.hpp`).

Each builder writes its fields into the worker's response buffer and leaves the
rest of the buffer as it finds it.
-/

namespace ConcurrentTcp

open Interaction

def createCurrentUserPacket (id : Str) (p : Buffer) : Buffer :=
  (p.setHeader .respCurrentUser sizeofPacketCurrentUser).write 4 (strncpy id 255)

def createFileListPacket (currentDir : Str) (p : Buffer) : ServerProg Buffer := do
  let p ← writeUserFileList currentDir p
  .ret (p.setHeader .respFileList sizeofPacketFileList)

/-- `parse_seting_packet_and_set` -/
def parseSetingPacketAndSet (p : SetSettingPacket) (g : GlobalState) : GlobalState :=
  if p.setting = settingCompressionLevel then { g with compressionLevel := p.value.getD 0 0 }
  else g

def createServerStatusPacket (p : Buffer) : ServerProg Buffer := do
  let p := p.setHeader .respServerStatusResponse sizeofServerStatusPacket
  let cpuUsage : UInt8 ← sys .cpuUsage
  let p := p.write 24 [cpuUsage]
  let (totalMemory, freeMemory) ← sys .memoryUsage
  let p := (p.write 8 (le64 totalMemory.toNat)).write 16 (le64 freeMemory.toNat)
  let uptimeSeconds : UInt64 ← sys .uptime
  .ret (p.write 32 (le64 uptimeSeconds.toNat))

/-- `strcpy` of the name stores its terminator too. -/
def createChunkInfoPacket (p : Buffer) (chunkCount : Nat) (fileName : Str) : Buffer :=
  let p := p.setHeader .respFileOpened sizeofPacketDownloadedFileInfo
  (p.write 8 (le64 chunkCount)).write 16 (fileName ++ [0])

/-- The container sizes are those of the completed packets, the active and the
pending connections. -/
def createConnectionsInfoPacket (p : Buffer) : ServerProg Buffer := do
  let p := p.setHeader .respConnectionsInfo sizeofPacketConnectionsInfo
  let (completed, active, pending) ← sys .containerSizes
  .ret (((p.write 24 (le64 completed)).write 8 (le64 active)).write 16 (le64 pending))

def createSettingsRespPacket (g : GlobalState) (p : Buffer) : Buffer :=
  (p.write 4 [g.compressionLevel]).setHeader .respSettings sizeofGetSettingsPacket

def createLoggedInPacket (isAdmin : Bool) (p : Buffer) : Buffer :=
  (p.setHeader .respLoggedIn sizeofLoggedInPacket).write 4 [if isAdmin then 1 else 0]

def createCurrentDirPacket (cwd : Str) (p : Buffer) : Buffer :=
  (p.write 4 (strncpy cwd 512)).setHeader .respCurrentDirectory sizeofPacketCurrentDirectory

/-- `max_chunk_size`: `UINT16_MAX - sizeof(PacketHeader)`. -/
def maxChunkSize : Nat := uint16Max - sizeofPacketHeader

/-- The `off_t` with the bits of a `size_t`. -/
def toOffT (n : Nat) : Int :=
  let m : Int := (n % 2 ^ 64 : Nat)
  if m < 2 ^ 63 then m else m - 2 ^ 64

/-- `create_chunk_packet`: its result and the buffer. The result of `read` is kept
in a `size_t`, so the test for a negative count never holds and -1 is
`SIZE_MAX`. -/
def createChunkPacket (p : Buffer) (chunkIndex : Nat) (fd : Int) : ServerProg (Int × Buffer) := do
  let offset := toOffT (chunkIndex * maxChunkSize)
  let position : Int ← sys (.lseek fd offset)
  if position ≠ offset then do
    let _ ← sys (.close fd)
    .ret (-1, p)
  else do
    match ← sys (.read fd maxChunkSize) with
    | some bytes =>
        let p := p.write 4 bytes
        .ret (0, p.setHeader .respFileChunk (bytes.length + sizeofPacketHeader))
    | none =>
        .ret (0, p.setHeader .respFileChunk ((2 ^ 64 - 1 + sizeofPacketHeader) % 2 ^ 64))

/-- `send_response_sync(buffer, length)` -/
def sendResponseSync (p : Buffer) (length : Nat) : ServerProg Unit :=
  sys (.send (p.read 0 length))

/-- Answer with what is in the response buffer. -/
def HandlerState.respond (s : HandlerState) (p : Buffer) (length : Nat) :
    ServerProg HandlerState := do
  sendResponseSync p length
  .ret { s with tls := p }

/-- `send_sample_resp` -/
def sendSampleResp (s : HandlerState) (packetType : PacketType) : ServerProg HandlerState :=
  s.respond (s.tls.setHeader packetType sizeofSamplePacket) sizeofSamplePacket

/-- `send_resp_not_admin` -/
def sendRespNotAdmin (s : HandlerState) : ServerProg HandlerState :=
  sendSampleResp s .respRequiresAdmin

/-- `send_resp_unauthorized` -/
def sendRespUnauthorized (s : HandlerState) : ServerProg HandlerState :=
  sendSampleResp s .respNotLoggedIn

end ConcurrentTcp
