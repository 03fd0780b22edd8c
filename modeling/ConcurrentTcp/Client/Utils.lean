import ConcurrentTcp.Common.Packets
import ConcurrentTcp.Server.Receive

/-!
What the client sends and reads (`common/utils.hpp`).

A packet of the client is its whole memory: what it does not set is what the memory
held before, and so is a parameter.
-/

namespace ConcurrentTcp

/-! ### Reading a response -/

/-- `recv_from_server`: a header, and then the rest of what the header says. The
result is the frame and what stays unread. When the stream is shorter, the client
takes all of it and waits. -/
def recvFromServer (stream : List UInt8) : List UInt8 × List UInt8 :=
  stream.splitAt (max sizeofPacketHeader (declaredSize stream))

/-- A frame as long as its header says is read whole. -/
theorem recvFromServer_frame {frame : List UInt8} (h : declaredSize frame = frame.length) :
    recvFromServer frame = (frame, []) := by
  have hall : frame.length ≤ max sizeofPacketHeader (declaredSize frame) := by
    rw [h]
    exact Nat.le_max_right ..
  simp [recvFromServer, List.take_of_length_le hall, List.drop_eq_nil_of_le hall]

/-- Of a longer stream, what its header does not cover stays unread. -/
theorem recvFromServer_rest {stream : List UInt8}
    (h : max sizeofPacketHeader (declaredSize stream) < stream.length) :
    (recvFromServer stream).2 ≠ [] := by
  simp only [recvFromServer, List.splitAt_eq, ne_eq, List.drop_eq_nil_iff]
  omega

/-! ### Splitting a file -/

/-- `break_vector_into` -/
def breakVectorInto (size : Nat) (data : List UInt8) : List (List UInt8) :=
  let numVecs := data.length / size
  let remaining := data.length % size
  let whole := (List.range numVecs).map fun i => (data.drop (i * size)).take size
  if remaining > 0 then whole ++ [data.drop (numVecs * size)] else whole

section BreakVector

variable {size : Nat} {data : List UInt8}

/-- The whole pieces are the front of the data. -/
theorem flatten_wholePieces (size n : Nat) (data : List UInt8) :
    ((List.range n).map fun i => (data.drop (i * size)).take size).flatten =
      data.take (n * size) := by
  induction n with
  | zero => simp
  | succ n ih =>
      rw [List.range_succ, List.map_append, List.flatten_append, ih, Nat.succ_mul, List.take_add]
      simp

/-- The pieces make up the data. -/
theorem flatten_breakVectorInto (size : Nat) (data : List UInt8) :
    (breakVectorInto size data).flatten = data := by
  unfold breakVectorInto
  dsimp only
  split
  · rw [List.flatten_append, flatten_wholePieces]
    simp
  · rename_i hnone
    have hall : data.length / size * size = data.length := by
      have hdivides := Nat.div_add_mod' data.length size
      omega
    rw [flatten_wholePieces, hall, List.take_length]

theorem length_of_mem_wholePieces {piece : List UInt8}
    (h : piece ∈ (List.range (data.length / size)).map fun i => (data.drop (i * size)).take size) :
    piece.length = size := by
  obtain ⟨i, hi, rfl⟩ := List.mem_map.mp h
  have hdivides := Nat.div_add_mod' data.length size
  have hfits : (i + 1) * size ≤ data.length / size * size :=
    Nat.mul_le_mul_right _ (List.mem_range.mp hi)
  rw [Nat.succ_mul] at hfits
  simp only [List.length_take, List.length_drop]
  omega

/-- No piece is empty or longer than the size. -/
theorem length_of_mem_breakVectorInto {piece : List UInt8} (hsize : 0 < size)
    (h : piece ∈ breakVectorInto size data) : 0 < piece.length ∧ piece.length ≤ size := by
  have hwhole : ∀ piece ∈ (List.range (data.length / size)).map
      (fun i => (data.drop (i * size)).take size), 0 < piece.length ∧ piece.length ≤ size := by
    intro piece hmem
    rw [length_of_mem_wholePieces hmem]
    exact ⟨hsize, Nat.le_refl _⟩
  unfold breakVectorInto at h
  dsimp only at h
  split at h
  · rename_i hremaining
    rcases List.mem_append.mp h with hmem | hlast
    · exact hwhole piece hmem
    · have hdivides := Nat.div_add_mod' data.length size
      have hlt := Nat.mod_lt data.length hsize
      rw [List.mem_singleton.mp hlast, List.length_drop]
      omega
  · exact hwhole piece h

end BreakVector

/-! ### The packets of an upload -/

/-- What `send` transmits of a packet. -/
def Buffer.frame (packet : Buffer) : List UInt8 := packet.read 0 packet.totalSize

/-- `PacketTransferFileStart`: the name is stored by `strcpy`, the digest is not set. -/
def fileTransferStart (junk : Buffer) (filePath : Str) : Buffer :=
  (junk.write 20 (filePath ++ [0])).setHeader .reqFileTransferStart sizeofPacketTransferFileStart

/-- `PacketTransferFileChunk`, also the last one before it is made the end. -/
def fileTransferChunk (junk : Buffer) (chunk : List UInt8) : Buffer :=
  (junk.setHeader .reqFileTransferChunk (sizeofPacketHeader + chunk.length)).write 4 chunk

theorem totalSize_fileTransferChunk (junk : Buffer) (chunk : List UInt8) :
    (fileTransferChunk junk chunk).totalSize = (sizeofPacketHeader + chunk.length) % 2 ^ 16 := by
  rw [fileTransferChunk, Buffer.totalSize_write _ (by decide), Buffer.totalSize_setHeader]

/-- `packets.back().header.command = PacketType::REQ_FILE_TRANSFER_END` -/
def endTransfer (packet : Buffer) : Buffer := packet.write 1 [PacketType.reqFileTransferEnd.toByte]

theorem endTransfer_apply {packet : Buffer} {i : Nat} (h : i ≠ 1) :
    endTransfer packet i = packet i := by
  unfold endTransfer Buffer.write
  rw [if_neg]
  rintro ⟨hge, hlt⟩
  exact h (Nat.le_antisymm (Nat.le_of_lt_succ hlt) hge)

@[simp] theorem totalSize_endTransfer (packet : Buffer) :
    (endTransfer packet).totalSize = packet.totalSize :=
  Buffer.totalSize_congr (endTransfer_apply (by decide)) (endTransfer_apply (by decide))

theorem read_endTransfer {packet : Buffer} {off len : Nat} (h : 2 ≤ off) :
    (endTransfer packet).read off len = packet.read off len := by
  apply List.map_congr_left
  intro i _
  exact endTransfer_apply (by omega)

@[simp] theorem command_endTransfer (packet : Buffer) :
    (endTransfer packet).command = PacketType.reqFileTransferEnd.toByte := by
  simp [endTransfer, Buffer.command, Buffer.write]

/-- `create_file_transfer_packets` for a file with this content. The command of the
last packet is changed, which is the start packet when there are no chunks. -/
def createFileTransferPackets (junk : Nat → Buffer) (filePath : Str) (content : List UInt8)
    (chunkSize : Nat) : List Buffer :=
  let start := fileTransferStart (junk 0) filePath
  let chunks := (breakVectorInto chunkSize content).mapIdx fun i chunk =>
    fileTransferChunk (junk (i + 1)) chunk
  let packets := start :: chunks
  packets.dropLast ++ (packets.getLast?.map endTransfer).toList

end ConcurrentTcp
