import ConcurrentTcp.Client.Menu

/-!
What the client makes of a response (`Menu::handle_response_packet`, `Menu::list_files` and
`print_connections_info` in `client/menu.hpp`).

A `Report` has the values that are printed, or kept in `is_admin`; the texts around them are
left out. A string is printed up to its NUL, also when that is behind its field.
-/

namespace ConcurrentTcp

open Interaction

/-- The cases of `handle_response_packet`. `said` is a fixed text. -/
inductive Report where
  | currentUser (id : Str)
  | currentDirectory (path : Str)
  | fileOpened (chunks : Nat) (fileName : Str)
  | connectionsInfo (completedPackets activeConnectionCount pendingConnectionCount : Nat)
  | fileList (fileNames : List Str)
  | serverStatus (totalSize : Nat) (cpuUsage : UInt8) (totalMemory uptimeSeconds : Nat)
  | settings (compressionLevel : UInt8)
  | loggedIn (isAdmin : Bool)
  | said (answer : PacketType)
  | unhandled
deriving DecidableEq, Repr

/-- `%s` of a string in the receive buffer. -/
def printedString (b : Buffer) (off : Nat) : Option Str := b.cString off (uint16Max - off)

/-- The loop of `list_files` from file `i` on. -/
def listFiles (b : Buffer) (i : Nat) : (left : Nat) → Option (List Str)
  | 0 => some []
  | left + 1 => do
      let fileName ← printedString b (5 + maxFilenameLen * i)
      let later ← listFiles b (i + 1) left
      some (fileName :: later)

/-- The answers with a fixed text; `RESP_CONTINUE` prints nothing. -/
def PacketType.isSaid : PacketType → Bool
  | .respPong | .respContinue | .respAdminAlreadyConnected | .respFileTransferOk | .respOk
  | .respRequiresAdmin | .respNotLoggedIn | .respBadLogin | .respIoError | .respCompress => true
  | _ => false

/-- The `switch` of `handle_response_packet`; `none` is a string without an end. -/
def readReport (buffer : Buffer) : Option Report :=
  match PacketType.ofByte? buffer.command with
  | some .respCurrentUser => (printedString buffer 4).map .currentUser
  | some .respCurrentDirectory => (printedString buffer 4).map .currentDirectory
  | some .respFileOpened =>
      (PacketDownloadedFileInfo.decodeFileName buffer).map
        (.fileOpened (PacketDownloadedFileInfo.decodeChunks buffer))
  | some .respConnectionsInfo =>
      some (.connectionsInfo (buffer.u64 24) (buffer.u64 8) (buffer.u64 16))
  | some .respFileList => (listFiles buffer 0 (buffer 4).toNat).map .fileList
  | some .respServerStatusResponse =>
      some (.serverStatus buffer.totalSize (buffer 24) (buffer.u64 8) (buffer.u64 32))
  | some .respSettings => some (.settings (buffer 4))
  | some .respLoggedIn => some (.loggedIn (buffer 4 ≠ 0))
  | some answer => if answer.isSaid then some (.said answer) else some .unhandled
  | none => some .unhandled

/-- The reports after which the client sends no further packet of its command. -/
def Report.stops : Report → Bool
  | .said .respRequiresAdmin | .said .respNotLoggedIn | .said .respBadLogin
  | .said .respIoError => true
  | _ => false

/-- The report decides whether the loop of `main` goes on, unless a file was opened. -/
theorem handleResponsePacket_report (junk : Nat → Buffer) {buffer : Buffer} {report : Report}
    (h : readReport buffer = some report)
    (hopened : ∀ chunks fileName, report ≠ .fileOpened chunks fileName) :
    handleResponsePacket junk buffer = .ret report.stops := by
  unfold readReport at h
  unfold handleResponsePacket
  cases hty : PacketType.ofByte? buffer.command with
  | none =>
      rw [hty] at h
      cases h
      rfl
  | some ty =>
      rw [hty] at h
      cases ty with
      | respFileOpened =>
          obtain ⟨fileName, -, rfl⟩ := Option.map_eq_some_iff.mp h
          exact absurd rfl (hopened _ _)
      | _ => first | (obtain ⟨s, -, rfl⟩ := Option.map_eq_some_iff.mp h; rfl) | (cases h; rfl)

/-! ### Frames -/

section Frames

variable {buf p : Buffer} {off n : Nat} {s : Str}

/-- A response that starts with the front of `p` is read like `p`. -/
theorem command_received (h : 1 < n) : (buf.write 0 (p.read 0 n)).command = p.command :=
  Buffer.write_read _ _ h

theorem u64_received (h : off + 8 ≤ n) : (buf.write 0 (p.read 0 n)).u64 off = p.u64 off :=
  Buffer.u64_congr fun _ _ hi => Buffer.write_read _ _ (by omega)

theorem totalSize_received (h : 4 ≤ n) : (buf.write 0 (p.read 0 n)).totalSize = p.totalSize :=
  Buffer.totalSize_congr (Buffer.write_read _ _ (by omega)) (Buffer.write_read _ _ (by omega))

/-- A string that ends within the response. -/
theorem printedString_received (h : p.cString off (n - off) = some s) (hn : n ≤ uint16Max) :
    printedString (buf.write 0 (p.read 0 n)) off = some s := by
  have hsame : (buf.write 0 (p.read 0 n)).cString off (n - off) = p.cString off (n - off) :=
    Buffer.cString_congr fun _ _ hi => Buffer.write_read _ _ (by omega)
  exact Buffer.cString_mono (Nat.sub_le_sub_right hn off) (hsame.trans h)

/-- A string that `strncpy` stored whole is read back. -/
theorem cString_strncpy (hs : 0 ∉ s) (hlen : s.length < n) :
    (p.write off (strncpy s n)).cString off n = some s := by
  obtain ⟨rest, hstored⟩ := strncpy_of_lt hlen
  have happend : s ++ 0 :: rest = s ++ [0] ++ rest := by simp
  have hroom : off + (s.length + 1) ≤ off + (s ++ [0]).length := by simp
  rw [hstored, happend, ← Buffer.write_append]
  apply Buffer.cString_mono hlen
  rw [Buffer.cString_write_of_le _ _ _ hroom]
  exact Buffer.cString_write _ _ hs (Nat.lt_succ_self _)

end Frames

end ConcurrentTcp
