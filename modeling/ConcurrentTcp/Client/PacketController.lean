import ConcurrentTcp.Client.Utils

/-!
The packets of the commands (`client/packet_controller.hpp`).

Each function fills a `Packet` on its stack, whose bytes are `junk` before. The names and
paths are stored by `strcpy`, which looks at no field size; they come from the input line,
which is much shorter than a packet.
-/

namespace ConcurrentTcp

/-- A packet with one path, and the version that most of the functions set. -/
def createPathPacket (command : PacketType) (size : Nat) (junk : Buffer) (path : Str) : Buffer :=
  ((junk.write 0 [0]).write 4 (path ++ [0])).setHeader command size

/-- `PacketController::create_download_file_packet` -/
def createDownloadFilePacket (junk : Buffer) (fileName : Str) : Buffer :=
  ((junk.write 0 [0]).write 4 (fileName ++ [0])).setHeader .reqFileOpen sizeofPacketDownloadFile

/-- `sizeof(SetSettingPacket)`: 13 bytes, and one of padding. -/
def sizeofSetSettingPacket : Nat := 14

/-! ### Numbers -/

/-- The characters of `isspace`. -/
def isSpace (c : UInt8) : Bool := c = 32 || (9 ≤ c && c ≤ 13)

def isDigit (c : UInt8) : Bool := 48 ≤ c && c ≤ 57

/-- The value of decimal digits. -/
def decimal (digits : Str) : Nat := digits.foldl (fun n c => 10 * n + (c.toNat - 48)) 0

/-- `atoi`: white space, a sign and digits. A value outside of `int` is undefined. -/
def atoi (s : Str) : Option Int :=
  let s := s.dropWhile isSpace
  let value : Int := match s with
    | 45 :: digits => -(decimal (digits.takeWhile isDigit))
    | 43 :: digits => decimal (digits.takeWhile isDigit)
    | digits => decimal (digits.takeWhile isDigit)
  if -2 ^ 31 ≤ value ∧ value < 2 ^ 31 then some value else none

namespace PacketController

def createMkdirPacket : Buffer → Str → Buffer :=
  createPathPacket .reqMkdir sizeofPacketCurrentDirectory

def createRemovePathPacket : Buffer → Str → Buffer :=
  createPathPacket .reqRemovePath sizeofPacketCurrentDirectory

def createChangeWdPacket : Buffer → Str → Buffer :=
  createPathPacket .reqChangeWorkingDirectory sizeofPacketCurrentDirectory

/-- A packet with the two paths of `PacketMoveFile`, which is also `PacketCopyFile`. -/
def createTwoPathsPacket (command : PacketType) (junk : Buffer) (path1 path2 : Str) : Buffer :=
  (((junk.write 0 [0]).write 4 (path1 ++ [0])).write 516 (path2 ++ [0])).setHeader command
    sizeofPacketMoveFile

def createMvPacket : Buffer → Str → Str → Buffer := createTwoPathsPacket .reqMoveFile

def createCpPacket : Buffer → Str → Str → Buffer := createTwoPathsPacket .reqCopyFile

/-- The version is not set. -/
def createLoginPacket (junk : Buffer) (username password : Str) : Buffer :=
  ((junk.setHeader .reqLogin sizeofPacketLogin).write 4 (username ++ [0])).write 68
    (password ++ [0])

/-- A packet that is a header. -/
def createSamplePacket (junk : Buffer) (command : PacketType) : Buffer :=
  (junk.write 0 [0]).setHeader command sizeofPacketHeader

def createServerStatusPacket (junk : Buffer) : Buffer := createSamplePacket junk .reqServerStatus

def createGetCwdPacket (junk : Buffer) : Buffer := createSamplePacket junk .reqCurrentDirectory

def createGetIdPacket (junk : Buffer) : Buffer := createSamplePacket junk .reqGetCurrentUser

def createLogoutPacket (junk : Buffer) : Buffer := createSamplePacket junk .reqLogout

def createPingPacket (junk : Buffer) : Buffer := createSamplePacket junk .reqPing

def createConnectionsStatusPacket (junk : Buffer) : Buffer :=
  createSamplePacket junk .reqConnectionsInfo

def createCleanPacket (junk : Buffer) : Buffer := createSamplePacket junk .reqClean

def createGetSettingsPacket (junk : Buffer) : Buffer := createSamplePacket junk .reqGetSettings

def createLsPacket (junk : Buffer) : Buffer := createSamplePacket junk .reqFileList

/-- The file names of `create_compress_packet` from name `i` on; a name that leaves the
packet is undefined. -/
def copyFileNames (p : Buffer) (i : Nat) : List Str → Except Fault Buffer
  | [] => .ok p
  | path :: rest =>
      if 8 + maxFilenameLen * i + path.length < uint16Max then
        copyFileNames (p.write (8 + maxFilenameLen * i) (path ++ [0])) (i + 1) rest
      else .error .undefinedBehaviour

/-- The archive name is stored before the file names. -/
def createCompressPacket (junk : Buffer) (format : Format) (compressionLevel : Level)
    (compressAll : Bool) (paths : List Str) (archiveName : Str) : Except Fault Buffer :=
  let p := ((junk.write 0 [0]).setHeader .reqCompress sizeofPacketCompress).write 4
    [format.toByte, compressionLevel.toByte, if compressAll then 1 else 0]
  let p := p.write (8 + maxFilenameLen * maxFiles) (archiveName ++ [0])
  copyFileNames (p.write 7 [UInt8.ofNat paths.length]) 0 paths

/-- `create_set_setting_packet_wrapped`: of the value only the first byte is set, and the
setting is not. -/
def createSetSettingPacketWrapped (junk : Buffer) (value : Str) : Except Fault (Option Buffer) :=
  match atoi value with
  | none => .error .undefinedBehaviour
  | some parsed =>
      if parsed > 255 ∨ parsed < 0 then .ok none
      else .ok (some ((junk.setHeader .reqSetSetting sizeofSetSettingPacket).write 5
        [UInt8.ofNat parsed.toNat]))

end PacketController

end ConcurrentTcp
