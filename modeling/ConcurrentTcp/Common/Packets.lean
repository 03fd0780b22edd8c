import ConcurrentTcp.Common.Protocol

/-!
Packet structures (`common/packets.hpp`) as laid out in memory.

Each structure is given by the offsets of its fields and its size, alignment
padding included. Requests are decoded field by field where the handlers read
them; responses are written field by field into a buffer.
-/

namespace ConcurrentTcp

/-- `MAX_FILES` -/
def maxFiles : Nat := 128

/-- `MAX_FILENAME_LEN` -/
def maxFilenameLen : Nat := 256

/-- `SERVER_FILES_DIR` -/
def serverFilesDir : Str := ascii "./tmp"

/-! ### Sizes -/

def sizeofServerStatusPacket : Nat := 40
def sizeofGetSettingsPacket : Nat := 6
def sizeofLoggedInPacket : Nat := 6
def sizeofSamplePacket : Nat := 4
def sizeofPacketTransferFileStart : Nat := 276
def sizeofPacketConnectionsInfo : Nat := 32
def sizeofPacketCompress : Nat := 33032
def sizeofPacketFileList : Nat := 32774
def sizeofPacketCurrentUser : Nat := 260
def sizeofPacketLogin : Nat := 132
def sizeofPacketDownloadFile : Nat := 260
def sizeofPacketDownloadedFileInfo : Nat := 272
def sizeofPacketDownloadChunk : Nat := 16
def sizeofPacketCurrentDirectory : Nat := 516
def sizeofPacketMoveFile : Nat := 1028

/-! ### Settings -/

/-- `SetSettingPacket`, without its header. -/
structure SetSettingPacket where
  setting : UInt8
  value : List UInt8
deriving DecidableEq, Repr

def SetSettingPacket.decode (b : Buffer) : SetSettingPacket :=
  { setting := b 4, value := b.read 5 8 }

/-- `Setting::COMPRESSION_LEVEL` -/
def settingCompressionLevel : UInt8 := 0

/-! ### Compression -/

/-- `enum class Format : uint8_t` -/
inductive Format where
  | zstd | gzip | xz | lzma | lz4 | zip
deriving DecidableEq, Repr

def Format.ofByte? (b : UInt8) : Option Format :=
  [Format.zstd, .gzip, .xz, .lzma, .lz4, .zip][b.toNat]?

def Format.toByte : Format → UInt8
  | zstd => 0
  | gzip => 1
  | xz => 2
  | lzma => 3
  | lz4 => 4
  | zip => 5

/-- `enum class Level : uint8_t` -/
inductive Level where
  | fastest | fast | normal | good | best
deriving DecidableEq, Repr

def Level.ofByte? (b : UInt8) : Option Level :=
  [Level.fastest, .fast, .normal, .good, .best][b.toNat]?

def Level.toByte : Level → UInt8
  | fastest => 0
  | fast => 1
  | normal => 2
  | good => 3
  | best => 4

namespace PacketCompress

def format (b : Buffer) : Option Format := Format.ofByte? (b 4)

def compressionLevel (b : Buffer) : Option Level := Level.ofByte? (b 5)

def compressAll (b : Buffer) : Bool := b 6 ≠ 0

def fileCount (b : Buffer) : Nat := (b 7).toNat

/-- `file_names[i]`, up to its NUL; `none` when the structure ends before it. -/
def fileName (b : Buffer) (i : Nat) : Option Str :=
  b.cString (8 + maxFilenameLen * i) (sizeofPacketCompress - (8 + maxFilenameLen * i))

/-- `archive_name` directly follows the `MAX_FILES` file names. -/
def archiveName (b : Buffer) : Option Str := fileName b maxFiles

end PacketCompress

/-! ### Names and paths in requests -/

/-- `PacketLogin`: two adjacent 64-byte fields, read in place in the packet
buffer, so an unterminated one runs on to the end of that buffer. -/
structure PacketLogin where
  username : Str
  password : Str
deriving DecidableEq, Repr

def PacketLogin.decode (b : Buffer) : Option PacketLogin := do
  let username ← b.cString 4 (uint16Max - 4)
  let password ← b.cString 68 (uint16Max - 68)
  return { username, password }

/-- The path of `PacketRemovePath`, `PacketMakeDirectory` and
`PacketChangeCurrentDirectory`. -/
def PacketCurrentDirectory.decodePath (b : Buffer) : Option Str :=
  b.cString 4 (sizeofPacketCurrentDirectory - 4)

/-- The path of `PacketDownloadFile`. -/
def PacketDownloadFile.decodePath (b : Buffer) : Option Str :=
  b.cString 4 (sizeofPacketDownloadFile - 4)

/-- The name in `PacketTransferFileStart`, after a 16-byte digest. -/
def PacketTransferFileStart.decodeFileName (b : Buffer) : Option Str :=
  b.cString 20 (sizeofPacketTransferFileStart - 20)

/-- `PacketMoveFile` and `PacketCopyFile`: two adjacent 512-byte fields. -/
structure PacketMoveFile where
  firstPath : Str
  secondPath : Str
deriving DecidableEq, Repr

def PacketMoveFile.decode (b : Buffer) : Option PacketMoveFile := do
  let firstPath ← b.cString 4 (sizeofPacketMoveFile - 4)
  let secondPath ← b.cString 516 (sizeofPacketMoveFile - 516)
  return { firstPath, secondPath }

/-- The index in `PacketDownloadChunk`. -/
def PacketDownloadChunk.decodeChunkIndex (b : Buffer) : Nat := b.u64 8

/-- `PacketDownloadedFileInfo`: the number of chunks and the name. -/
def PacketDownloadedFileInfo.decodeChunks (b : Buffer) : Nat := b.u64 8

def PacketDownloadedFileInfo.decodeFileName (b : Buffer) : Option Str :=
  b.cString 16 (sizeofPacketDownloadedFileInfo - 16)

end ConcurrentTcp
