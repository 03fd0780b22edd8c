import ConcurrentTcp.Base.Files
import ConcurrentTcp.Client.Utils
import ConcurrentTcp.Server.TransferCalls

/-!
Transfers and the files they work on.

The file calls of the transfer handlers are operations of `Files`, for any way to
find the file of a path. `Handled` is one packet with the operations of its handler,
all of which succeed in full.
-/

namespace ConcurrentTcp

open Interaction Files

variable {Node : Type} [DecidableEq Node]

/-! ### Calls as file operations -/

/-- The operation of a call. -/
def fileOp? (locate : Str → Node) : ServerEvent → Option (FileOp Node UInt8)
  | ⟨.openFile path creat, fd⟩ => some (.opens (locate path) creat fd)
  | ⟨.fstat fd, size⟩ => some (.size fd size)
  | ⟨.lseek fd offset, position⟩ => some (.seek fd offset position)
  | ⟨.read fd count, bytes⟩ => some (.read fd count bytes)
  | ⟨.write fd data count, written⟩ => some (.write fd (data.read 0 count) written)
  | ⟨.close fd, result⟩ => some (.close fd result)
  | _ => none

/-- The calls are file operations that succeed, and sends. -/
inductive FileRun (locate : Str → Node) :
    FileSystem Node UInt8 → List ServerEvent → FileSystem Node UInt8 → Prop where
  | nil (fs : FileSystem Node UInt8) : FileRun locate fs [] fs
  | send {fs fs' : FileSystem Node UInt8} {bytes : List UInt8} {events : List ServerEvent} :
      FileRun locate fs events fs' → FileRun locate fs (⟨.send bytes, ()⟩ :: events) fs'
  | call {fs fs' fs'' : FileSystem Node UInt8} {e : ServerEvent} {op : FileOp Node UInt8}
      {events : List ServerEvent} : fileOp? locate e = some op → Step fs op fs' →
      FileRun locate fs' events fs'' → FileRun locate fs (e :: events) fs''

namespace FileRun

variable {locate : Str → Node} {fs fs' : FileSystem Node UInt8} {events : List ServerEvent}

theorem nil_iff : FileRun locate fs [] fs' ↔ fs' = fs := by
  constructor
  · intro run
    cases run
    rfl
  · rintro rfl
    exact .nil _

theorem send_iff {bytes : List UInt8} :
    FileRun locate fs (⟨.send bytes, ()⟩ :: events) fs' ↔ FileRun locate fs events fs' := by
  constructor
  · intro run
    cases run with
    | send rest => exact rest
    | call hop _ _ => cases hop
  · exact .send

theorem call_iff {e : ServerEvent} {op : FileOp Node UInt8} (hop : fileOp? locate e = some op) :
    FileRun locate fs (e :: events) fs' ↔
      ∃ after, Step fs op after ∧ FileRun locate after events fs' := by
  constructor
  · intro run
    cases run with
    | send rest => cases hop
    | call hop' step rest =>
        rw [hop] at hop'
        cases hop'
        exact ⟨_, step, rest⟩
  · rintro ⟨after, step, rest⟩
    exact .call hop step rest

end FileRun

/-! ### Packets -/

/-- The session of a connection, and the files of the server. -/
structure Storage (Node : Type) where
  session : Session
  g : GlobalState
  files : FileSystem Node UInt8

/-- A packet of connection `c` is handled by any worker while the receive buffer still
holds it. -/
inductive Handled (users : DatabaseHandler) (locate : Str → Node) (c : ConnId) :
    Storage Node → List UInt8 → List ServerEvent → Storage Node → Prop where
  | mk {s : Storage Node} {frame : List UInt8} {events : List ServerEvent} {t : HandlerState}
      {files : FileSystem Node UInt8} (fuel : Nat) (tls : Buffer) :
      Exec (processPacket users fuel (ConnectionBuffer.buffer ⟨c, frame⟩) ⟨c, frame⟩
        ⟨s.session, s.g, tls⟩) events (.ok t) →
      FileRun locate s.files events files →
      Handled users locate c s frame events ⟨t.session, t.g, files⟩

/-- Packets are handled one after the other. -/
inductive HandledAll (users : DatabaseHandler) (locate : Str → Node) (c : ConnId) :
    Storage Node → List (List UInt8) → List ServerEvent → Storage Node → Prop where
  | nil (s : Storage Node) : HandledAll users locate c s [] [] s
  | cons {s t u : Storage Node} {frame : List UInt8} {frames : List (List UInt8)}
      {first second : List ServerEvent} : Handled users locate c s frame first t →
      HandledAll users locate c t frames second u →
      HandledAll users locate c s (frame :: frames) (first ++ second) u

/-- A name that the transfer handlers take for the name of a file. -/
structure TransferName (session : Session) (name : Str) : Prop where
  valid : isValidFilename name = true
  terminated : 0 ∉ name
  fits : name.length < maxFilenameLen
  pathFits : (session.path name).length < sizeofFilePath

/-- A user has logged in; there are no files, and descriptors 0 to 5 are in use. -/
def exampleStorage : Storage Str where
  session := { Session.accepted 5 with id := ascii "1", currentDir := ascii "./tmp/1" }
  g := .initial
  files :=
    { content := fun _ => none
      descriptor := fun fd => if 0 ≤ fd ∧ fd < 6 then some .other else none }

theorem transferName_example : TransferName exampleStorage.session (ascii "a") where
  valid := by decide
  terminated := by decide
  fits := by decide
  pathFits := by decide

section Frames

variable {packet : Buffer} {c : ConnId}

/-- The server finds in its packet buffer what the client sent. -/
theorem buffer_frame {i : Nat} (h : i < packet.totalSize) :
    ConnectionBuffer.buffer ⟨c, packet.frame⟩ i = packet i := by
  simp only [ConnectionBuffer.buffer, Buffer.frame, List.getD_eq_getElem?_getD]
  rw [Buffer.getElem?_read _ _ h, Nat.zero_add, Option.getD_some]

theorem command_frame (h : 4 ≤ packet.totalSize) :
    (ConnectionBuffer.buffer ⟨c, packet.frame⟩).command = packet.command :=
  buffer_frame (by omega)

theorem totalSize_frame (h : 4 ≤ packet.totalSize) :
    (ConnectionBuffer.buffer ⟨c, packet.frame⟩).totalSize = packet.totalSize :=
  Buffer.totalSize_congr (buffer_frame (by omega)) (buffer_frame (by omega))

theorem read_frame {off len : Nat} (h : off + len ≤ packet.totalSize) :
    (ConnectionBuffer.buffer ⟨c, packet.frame⟩).read off len = packet.read off len := by
  apply List.map_congr_left
  intro i hi
  have hlt : i < len := List.mem_range.mp hi
  exact buffer_frame (by omega)

theorem cString_frame {off len : Nat} (h : off + len ≤ packet.totalSize) :
    (ConnectionBuffer.buffer ⟨c, packet.frame⟩).cString off len = packet.cString off len := by
  apply Buffer.cString_congr
  intro i _ hi
  exact buffer_frame (by omega)

/-- A request keeps its type. -/
theorem getPacketType_of_command {b : Buffer} {ty : PacketType} (h : b.command = ty.toByte)
    (hrequest : ty.toByte ≤ PacketType.respFileList.toByte) : getPacketType b = ty := by
  unfold getPacketType
  rw [h, if_neg (UInt8.not_lt.mpr hrequest), PacketType.ofByte?_toByte]
  simp

/-- What a logged-in client's packet runs. -/
theorem processPacket_frame {users : DatabaseHandler} {fuel : Nat} {s : HandlerState}
    {ty : PacketType} {handler : HandlerState → ServerProg HandlerState}
    (hsize : 4 ≤ packet.totalSize) (hcommand : packet.command = ty.toByte)
    (hrequest : ty.toByte ≤ PacketType.respFileList.toByte) (hid : s.session.id ≠ [])
    (hhandler : handlers users fuel (ConnectionBuffer.buffer ⟨c, packet.frame⟩) ⟨c, packet.frame⟩
      ty = some handler) :
    processPacket users fuel (ConnectionBuffer.buffer ⟨c, packet.frame⟩) ⟨c, packet.frame⟩ s =
      handler s := by
  unfold processPacket
  rw [getPacketType_of_command ((command_frame hsize).trans hcommand) hrequest]
  exact dispatch_authorized hid hhandler

end Frames

end ConcurrentTcp
