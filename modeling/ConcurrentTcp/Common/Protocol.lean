import ConcurrentTcp.Common.Bytes

/-!
The wire protocol: packet types and the packet header (`common/protocol.hpp`).
-/

namespace ConcurrentTcp

/-- `enum class PacketType : uint8_t`, in the order of the source. -/
inductive PacketType where
  | reqFileTransferStart
  | reqFileTransferChunk
  | reqFileTransferEnd
  | reqCrcVerify
  | reqServerStatus
  | reqGetSettings
  | reqSetSetting
  | reqRemovePath
  | reqMoveFile
  | reqCopyFile
  | reqLogin
  | reqFileList
  | reqConnectionsInfo
  | reqPing
  | reqLogout
  | reqGetCurrentUser
  | reqFileOpen
  | reqFileDownloadChunk
  | reqFileClose
  | reqCurrentDirectory
  | reqChangeWorkingDirectory
  | reqMkdir
  | reqCompress
  | reqClean
  | respCurrentDirectory
  | respIoError
  | respFileOpened
  | respFileChunk
  | respFileClosed
  | respContinue
  | respAdminAlreadyConnected
  | respOk
  | respCrcFailed
  | respServerStatusResponse
  | respFileTransferOk
  | respRequiresAdmin
  | respLoggedIn
  | respNotLoggedIn
  | respCurrentUser
  | respBadLogin
  | respSettings
  | respConnectionsInfo
  | respPong
  | respFileList
  | respCompress
deriving DecidableEq, Repr

namespace PacketType

/-- The enumerators in order of declaration. -/
def all : List PacketType :=
  [.reqFileTransferStart, .reqFileTransferChunk, .reqFileTransferEnd, .reqCrcVerify,
    .reqServerStatus, .reqGetSettings, .reqSetSetting, .reqRemovePath, .reqMoveFile,
    .reqCopyFile, .reqLogin, .reqFileList, .reqConnectionsInfo, .reqPing, .reqLogout,
    .reqGetCurrentUser, .reqFileOpen, .reqFileDownloadChunk, .reqFileClose,
    .reqCurrentDirectory, .reqChangeWorkingDirectory, .reqMkdir, .reqCompress, .reqClean,
    .respCurrentDirectory, .respIoError, .respFileOpened, .respFileChunk, .respFileClosed,
    .respContinue, .respAdminAlreadyConnected, .respOk, .respCrcFailed,
    .respServerStatusResponse, .respFileTransferOk, .respRequiresAdmin, .respLoggedIn,
    .respNotLoggedIn, .respCurrentUser, .respBadLogin, .respSettings, .respConnectionsInfo,
    .respPong, .respFileList, .respCompress]

/-- The enumerator's value: enumerators count from zero. -/
def toByte (t : PacketType) : UInt8 := UInt8.ofNat t.ctorIdx

/-- The enumerator a byte stands for. -/
def ofByte? (b : UInt8) : Option PacketType := all[b.toNat]?

/-- A byte with an enumerator is that enumerator's value. -/
theorem toByte_of_ofByte? {b : UInt8} {t : PacketType} (h : ofByte? b = some t) :
    t.toByte = b := by
  have hall : ∀ n : Fin 45, ((all[n.val]?).map toByte) = some (UInt8.ofNat n.val) := by decide
  have hlt : b.toNat < 45 := by
    obtain ⟨hlt, -⟩ := List.getElem?_eq_some_iff.mp h
    exact hlt
  have := hall ⟨b.toNat, hlt⟩
  rw [show all[b.toNat]? = some t from h] at this
  simpa using this

/-- An enumerator is the one its value stands for. -/
theorem ofByte?_toByte (t : PacketType) : ofByte? t.toByte = some t := by
  cases t <;> rfl

@[simp] theorem toByte_inj {t u : PacketType} : t.toByte = u.toByte ↔ t = u := by
  constructor
  · intro h
    have := ofByte?_toByte t
    rw [h, ofByte?_toByte] at this
    exact (Option.some.inj this).symm
  · rintro rfl
    rfl

end PacketType

/-- `sizeof(PacketHeader)`: version, command and a 16-bit total size. -/
def sizeofPacketHeader : Nat := 4

/-- `UINT16_MAX`, the size of the receive, packet and response buffers. -/
def uint16Max : Nat := 65535

/-- `header.command`. -/
def Buffer.command (b : Buffer) : UInt8 := b 1

/-- `header.total_size`. -/
def Buffer.totalSize (b : Buffer) : Nat := b.u16 2

/-- Store `header.command` and `header.total_size`; `header.version` is left as
it is. -/
def Buffer.setHeader (b : Buffer) (t : PacketType) (totalSize : Nat) : Buffer :=
  (b.write 1 [t.toByte]).write 2 (le16 totalSize)

namespace Buffer

@[simp] theorem command_setHeader (b : Buffer) (t : PacketType) (n : Nat) :
    (b.setHeader t n).command = t.toByte := by
  simp [command, setHeader, write]

/-- A write past the header leaves the command. -/
theorem command_write {b : Buffer} {off : Nat} (bytes : List UInt8) (h : 4 ≤ off) :
    (b.write off bytes).command = b.command :=
  write_of_lt b off bytes (by omega)

@[simp] theorem totalSize_setHeader (b : Buffer) (t : PacketType) (n : Nat) :
    (b.setHeader t n).totalSize = n % 2 ^ 16 := by
  simp [totalSize, u16, setHeader, write, le16]
  omega

theorem totalSize_lt (b : Buffer) : b.totalSize < 2 ^ 16 := by
  have low := (b 2).toNat_lt
  have high := (b (2 + 1)).toNat_lt
  simp only [totalSize, u16]
  omega

theorem totalSize_congr {b b' : Buffer} (hlow : b 2 = b' 2) (hhigh : b 3 = b' 3) :
    b.totalSize = b'.totalSize := by
  simp only [totalSize, u16]
  rw [hlow, hhigh]

theorem totalSize_write {b : Buffer} {off : Nat} (bytes : List UInt8) (h : 4 ≤ off) :
    (b.write off bytes).totalSize = b.totalSize :=
  totalSize_congr (write_of_lt b off bytes (by omega)) (write_of_lt b off bytes (by omega))

/-- The header leaves what is behind it. -/
theorem setHeader_of_le (b : Buffer) (t : PacketType) (n : Nat) {i : Nat} (h : 4 ≤ i) :
    b.setHeader t n i = b i := by
  rw [setHeader, write_of_le _ _ _ (by simpa [le16] using h),
    write_of_le _ _ _ (by simp only [List.length_singleton]; omega)]

theorem cString_setHeader (b : Buffer) (t : PacketType) (n : Nat) {off : Nat} (len : Nat)
    (h : 4 ≤ off) : (b.setHeader t n).cString off len = b.cString off len :=
  cString_congr fun _ hi _ => setHeader_of_le b t n (Nat.le_trans h hi)

/-- The header goes to the front of the buffer, behind its version. -/
theorem read_setHeader (b : Buffer) (t : PacketType) (n : Nat) :
    (b.setHeader t n).read 0 4 = b 0 :: t.toByte :: le16 n := by
  simp [read, setHeader, write, le16, List.range_succ]

end Buffer

end ConcurrentTcp
