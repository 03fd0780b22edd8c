import ConcurrentTcp.Client.Menu
import ConcurrentTcp.Server.AdminPrivilege
import ConcurrentTcp.Server.Outcomes
import ConcurrentTcp.Server.Storage

/-!
Downloads.

`ClientRun` runs the calls of the client against a server that handles each packet
when it is sent, with files on both sides. `Downloading` is what holds before each
round of the download loop; `download_faithful` puts the rounds together.
-/

namespace ConcurrentTcp

open Interaction Files

variable {Node : Type} [DecidableEq Node]

/-! ### Client and server -/

/-- The server, the files of the client, and what the client has not read yet. -/
structure ClientWorld (Node : Type) where
  server : Storage Node
  files : FileSystem Node UInt8
  unread : List UInt8

/-- The operation of a call of the client. -/
def clientFileOp? (home : Str → Node) : ClientEvent → Option (FileOp Node UInt8)
  | ⟨.openFile path, fd⟩ => some (.opens (home path) true fd)
  | ⟨.write fd data count, written⟩ => some (.write fd (data.read 0 count) written)
  | ⟨.close fd, result⟩ => some (.close fd result)
  | _ => none

/-- A call of the client. A packet that is sent is handled, and what is sent back can
be read. -/
inductive ClientStep (users : DatabaseHandler) (locate home : Str → Node) (c : ConnId) :
    ClientWorld Node → ClientEvent → ClientWorld Node → Prop where
  | send {w : ClientWorld Node} {frame : List UInt8} {events : List ServerEvent}
      {server : Storage Node} : Handled users locate c w.server frame events server →
      ClientStep users locate home c w ⟨.send frame, true⟩
        { w with server := server, unread := w.unread ++ (sends events).flatten }
  | recv {w : ClientWorld Node} {frame rest : List UInt8} :
      recvFromServer w.unread = (frame, rest) →
      ClientStep users locate home c w ⟨.recv, frame⟩ { w with unread := rest }
  | file {w : ClientWorld Node} {e : ClientEvent} {op : FileOp Node UInt8}
      {files : FileSystem Node UInt8} : clientFileOp? home e = some op → Step w.files op files →
      ClientStep users locate home c w e { w with files := files }

inductive ClientRun (users : DatabaseHandler) (locate home : Str → Node) (c : ConnId) :
    ClientWorld Node → List ClientEvent → ClientWorld Node → Prop where
  | nil (w : ClientWorld Node) : ClientRun users locate home c w [] w
  | cons {w w' w'' : ClientWorld Node} {e : ClientEvent} {events : List ClientEvent} :
      ClientStep users locate home c w e w' → ClientRun users locate home c w' events w'' →
      ClientRun users locate home c w (e :: events) w''

section Runs

variable {users : DatabaseHandler} {locate home : Str → Node} {c : ConnId}
  {w w' : ClientWorld Node} {events : List ClientEvent}

theorem ClientRun.send_inv {frame : List UInt8} {sent : Bool}
    (run : ClientRun users locate home c w (⟨.send frame, sent⟩ :: events) w') :
    sent = true ∧ ∃ first server, Handled users locate c w.server frame first server ∧
      ClientRun users locate home c
        { w with server := server, unread := w.unread ++ (sends first).flatten } events w' := by
  cases run with
  | cons step rest =>
      cases step with
      | send handled => exact ⟨rfl, _, _, handled, rest⟩
      | file hop _ => cases hop

theorem ClientRun.recv_inv {frame : List UInt8}
    (run : ClientRun users locate home c w (⟨.recv, frame⟩ :: events) w') :
    ∃ rest, recvFromServer w.unread = (frame, rest) ∧
      ClientRun users locate home c { w with unread := rest } events w' := by
  cases run with
  | cons step rest =>
      cases step with
      | recv hrecv => exact ⟨_, hrecv, rest⟩
      | file hop _ => cases hop

theorem ClientRun.file_inv {e : ClientEvent} {op : FileOp Node UInt8}
    (hop : clientFileOp? home e = some op)
    (run : ClientRun users locate home c w (e :: events) w') :
    ∃ files, Step w.files op files ∧
      ClientRun users locate home c { w with files := files } events w' := by
  cases run with
  | cons step rest =>
      cases step with
      | send _ => cases hop
      | recv _ => cases hop
      | file hop' did =>
          rw [hop] at hop'
          cases hop'
          exact ⟨_, did, rest⟩

theorem ClientRun.append {w'' : ClientWorld Node} {later : List ClientEvent}
    (run : ClientRun users locate home c w events w')
    (rest : ClientRun users locate home c w' later w'') :
    ClientRun users locate home c w (events ++ later) w'' := by
  induction run with
  | nil w => exact rest
  | cons step _ ih => exact .cons step (ih rest)

/-- One frame is read whole. -/
theorem ClientRun.recv_frame {frame answer : List UInt8} (hunread : w.unread = answer)
    (hsize : declaredSize answer = answer.length)
    (run : ClientRun users locate home c w (⟨.recv, frame⟩ :: events) w') :
    frame = answer ∧ ClientRun users locate home c { w with unread := [] } events w' := by
  obtain ⟨rest, hrecv, later⟩ := run.recv_inv
  rw [hunread, recvFromServer_frame hsize] at hrecv
  cases hrecv
  exact ⟨rfl, later⟩

end Runs

/-! ### The file-open handler -/

section FileOpen

variable {users : DatabaseHandler} {locate : Str → Node} {c : ConnId} {s t : Storage Node}
  {events : List ServerEvent} {junk : Buffer} {name : Str}

theorem totalSize_createDownloadFilePacket :
    (createDownloadFilePacket junk name).totalSize = sizeofPacketDownloadFile := by
  simp [createDownloadFilePacket, sizeofPacketDownloadFile]

theorem fileOpen_handler (users : DatabaseHandler) (fuel : Nat) {u : HandlerState}
    (hid : u.session.id ≠ []) :
    processPacket users fuel
      (ConnectionBuffer.buffer ⟨c, (createDownloadFilePacket junk name).frame⟩)
      ⟨c, (createDownloadFilePacket junk name).frame⟩ u =
        reqFileOpen ⟨c, (createDownloadFilePacket junk name).frame⟩ u := by
  have hsize : 4 ≤ (createDownloadFilePacket junk name).totalSize := by
    rw [totalSize_createDownloadFilePacket]
    decide
  have hcommand : (createDownloadFilePacket junk name).command = PacketType.reqFileOpen.toByte :=
    Buffer.command_setHeader ..
  exact processPacket_frame hsize hcommand (by decide) hid rfl

theorem decodePath_createDownloadFilePacket (junk : Buffer) (c : ConnId) (hterminated : 0 ∉ name)
    (hfits : name.length < maxFilenameLen) :
    PacketDownloadFile.decodePath
      (ConnectionBuffer.buffer ⟨c, (createDownloadFilePacket junk name).frame⟩) = some name := by
  rw [← Buffer.cString_write (junk.write 0 [0]) 4 hterminated hfits]
  unfold PacketDownloadFile.decodePath
  rw [cString_frame (by rw [totalSize_createDownloadFilePacket]; decide)]
  exact Buffer.cString_setHeader _ _ _ _ (Nat.le_refl 4)

theorem TransferName.sprintfPath_eq {session : Session} (hname : TransferName session name) :
    sprintfPath session name = some (session.path name) :=
  if_pos hname.pathFits

/-- The number of chunks the file-open handler announces. -/
def chunkCount (size : Nat) : Nat :=
  size / maxChunkSize + (if size % maxChunkSize ≠ 0 then 1 else 0)

/-- A file that is opened for download. -/
structure FileOpened (locate : Str → Node) (name : Str) (fd : Int) (content : List UInt8)
    (s t : Storage Node) : Prop where
  positive : 0 < fd
  session : t.session = { s.session with downloadFd := fd }
  existing : s.files.content (locate (s.session.path name)) = some content
  size : content.length < 2 ^ 63
  stored : t.files.content (locate (s.session.path name)) = some content
  descriptor : t.files.descriptor fd = some (.file (locate (s.session.path name)) 0)

/-- The file-open handler answers with an error, or with what it opened. -/
theorem Handled.fileOpen (hname : TransferName s.session name) (hid : s.session.id ≠ [])
    (handled : Handled users locate c s (createDownloadFilePacket junk name).frame events t) :
    (∃ tls, sends events = [sampleFrame tls .respIoError]) ∨
      ∃ fd content tls, FileOpened locate name fd content s t ∧
        sends events = [(createChunkInfoPacket tls (chunkCount content.length) name).read 0
          sizeofPacketDownloadedFileInfo] := by
  obtain ⟨fuel, tls, run, ops⟩ := handled
  have hdecode := decodePath_createDownloadFilePacket junk c hname.terminated hname.fits
  rw [fileOpen_handler users fuel hid] at run
  obtain ⟨u, hend, calls⟩ := (exec_reqFileOpen_iff hdecode hname.valid hname.sprintfPath_eq).mp run
  cases hend
  cases calls with
  | notOpened file hfile => exact .inl ⟨tls, rfl⟩
  | noSize file hfile =>
      obtain ⟨opened, -, ops⟩ := (FileRun.call_iff rfl).mp ops
      obtain ⟨sized, step, -⟩ := (FileRun.call_iff rfl).mp ops
      cases step
  | opened file fileSize p hfile hp =>
      obtain ⟨opened, opens, ops⟩ := (FileRun.call_iff rfl).mp ops
      obtain ⟨sized, sizes, ops⟩ := (FileRun.call_iff rfl).mp ops
      rw [FileRun.send_iff, FileRun.nil_iff] at ops
      subst ops
      cases opens with
      | opens hfd hfree hexists =>
      obtain ⟨content, hcontent⟩ := Option.isSome_iff_exists.mp (hexists.resolve_left (by simp))
      have hposition : (((s.files.setContent (locate (s.session.path name))
          ((s.files.content (locate (s.session.path name))).getD [])).setDescriptor file
            (some (.file (locate (s.session.path name)) 0))).descriptor file) =
              some (.file (locate (s.session.path name)) 0) :=
        FileSystem.descriptor_setDescriptor_self ..
      cases sizes with
      | size hfile' hsize hlt =>
      rw [hposition] at hfile'
      cases hfile'
      simp [hcontent] at hsize
      subst hsize
      refine .inr ⟨file, content, tls, ⟨by omega, rfl, hcontent, hlt, ?_, hposition⟩, ?_⟩
      · simp [hcontent]
      · exact congrArg (fun p : Buffer => [p.read 0 sizeofPacketDownloadedFileInfo]) hp

/-- With a free descriptor, a file that exists is opened. -/
theorem exists_handled_fileOpen {fd : Int} {content : List UInt8}
    (hname : TransferName s.session name) (hid : s.session.id ≠ []) (hfd : 0 < fd)
    (hfree : s.files.descriptor fd = none)
    (hcontent : s.files.content (locate (s.session.path name)) = some content)
    (hlength : content.length < 2 ^ 63) :
    ∃ tls events t, Handled users locate c s (createDownloadFilePacket junk name).frame events t ∧
      FileOpened locate name fd content s t ∧
        sends events = [(createChunkInfoPacket tls (chunkCount content.length) name).read 0
          sizeofPacketDownloadedFileInfo] := by
  have hdecode := decodePath_createDownloadFilePacket junk c hname.terminated hname.fits
  have run : Exec (reqFileOpen ⟨c, (createDownloadFilePacket junk name).frame⟩
      ⟨s.session, s.g, Buffer.zero⟩) _ _ :=
    (exec_reqFileOpen_iff hdecode hname.valid hname.sprintfPath_eq).mpr
      ⟨_, rfl, .opened fd content.length _ (by omega) rfl⟩
  rw [← fileOpen_handler users 0 hid] at run
  let opened := (s.files.setContent (locate (s.session.path name)) content).setDescriptor fd
    (some (.file (locate (s.session.path name)) 0))
  have opens : Step s.files (.opens (locate (s.session.path name)) false fd) opened :=
    .opens_existing false (Int.le_of_lt hfd) hfree hcontent
  have sizes : Step opened (.size fd (some content.length)) opened :=
    .size (FileSystem.descriptor_setDescriptor_self ..) (FileSystem.content_setContent_self ..)
      hlength
  have handled := Handled.mk 0 Buffer.zero run (.call rfl opens (.call rfl sizes (.send (.nil _))))
  refine ⟨Buffer.zero, _, _, handled, ⟨hfd, rfl, hcontent, hlength, ?_, ?_⟩, rfl⟩
  · exact FileSystem.content_setContent_self ..
  · exact FileSystem.descriptor_setDescriptor_self ..

end FileOpen

/-! ### The chunk handler -/

/-- The bytes of a chunk. -/
def chunkOf (content : List UInt8) (chunk : Nat) : List UInt8 :=
  (content.drop (chunk * maxChunkSize)).take maxChunkSize

section Chunk

variable {users : DatabaseHandler} {locate : Str → Node} {c : ConnId} {s t : Storage Node}
  {events : List ServerEvent} {junk : Buffer} {chunk : Nat} {fd : Int} {node : Node}
  {content : List UInt8}

theorem length_chunkOf (content : List UInt8) (chunk : Nat) :
    (chunkOf content chunk).length = min maxChunkSize (content.length - chunk * maxChunkSize) := by
  simp [chunkOf]

theorem totalSize_downloadChunkRequest :
    (downloadChunkRequest junk chunk).totalSize = sizeofPacketDownloadChunk := by
  rw [downloadChunkRequest, Buffer.totalSize_write _ (by decide)]
  simp [sizeofPacketDownloadChunk]

theorem command_downloadChunkRequest :
    (downloadChunkRequest junk chunk).command = PacketType.reqFileDownloadChunk.toByte := by
  rw [downloadChunkRequest, Buffer.command_write _ (by decide), Buffer.command_setHeader]

/-- The server reads the index that the client stored. -/
theorem decodeChunkIndex_downloadChunkRequest (junk : Buffer) (c : ConnId)
    (h : chunk < 2 ^ 64) :
    PacketDownloadChunk.decodeChunkIndex
      (ConnectionBuffer.buffer ⟨c, (downloadChunkRequest junk chunk).frame⟩) = chunk := by
  have hframe : ∀ i, 8 ≤ i → i < 8 + 8 →
      ConnectionBuffer.buffer ⟨c, (downloadChunkRequest junk chunk).frame⟩ i =
        downloadChunkRequest junk chunk i := by
    intro i _ hi
    apply buffer_frame
    rw [totalSize_downloadChunkRequest]
    exact hi
  rw [PacketDownloadChunk.decodeChunkIndex, Buffer.u64_congr hframe, downloadChunkRequest,
    Buffer.u64_write, Nat.mod_eq_of_lt h]

theorem downloadChunk_handler (users : DatabaseHandler) (fuel : Nat) {u : HandlerState}
    (hid : u.session.id ≠ []) :
    processPacket users fuel (ConnectionBuffer.buffer ⟨c, (downloadChunkRequest junk chunk).frame⟩)
      ⟨c, (downloadChunkRequest junk chunk).frame⟩ u =
        reqFileDownloadChunk ⟨c, (downloadChunkRequest junk chunk).frame⟩ u := by
  have hsize : 4 ≤ (downloadChunkRequest junk chunk).totalSize := by
    rw [totalSize_downloadChunkRequest]
    decide
  exact processPacket_frame hsize command_downloadChunkRequest (by decide) hid rfl

/-- The offset does not leave the range of `off_t`. -/
theorem toOffT_of_lt {n : Nat} (h : n < 2 ^ 63) : toOffT n = n := by
  unfold toOffT
  have hmod : n % 2 ^ 64 = n := Nat.mod_eq_of_lt (by omega)
  rw [hmod]
  dsimp only
  rw [if_pos (by omega)]

theorem chunkOffset_downloadChunkRequest (junk : Buffer) (c : ConnId)
    (h : chunk * maxChunkSize < 2 ^ 63) :
    chunkOffset ⟨c, (downloadChunkRequest junk chunk).frame⟩ = (chunk * maxChunkSize : Nat) := by
  have hchunk : chunk < 2 ^ 64 := by
    simp only [maxChunkSize, uint16Max, sizeofPacketHeader] at h
    omega
  rw [chunkOffset, decodeChunkIndex_downloadChunkRequest junk c hchunk, toOffT_of_lt h]

/-- A chunk within the file is answered with its bytes. -/
theorem Handled.downloadChunk {position : Nat} (hid : s.session.id ≠ [])
    (hfd : s.session.downloadFd = fd)
    (hdescriptor : s.files.descriptor fd = some (.file node position))
    (hcontent : s.files.content node = some content) (hoffset : chunk * maxChunkSize < 2 ^ 63)
    (handled : Handled users locate c s (downloadChunkRequest junk chunk).frame events t) :
    ∃ tls position files, t = ⟨s.session, s.g, files⟩ ∧ files.content = s.files.content ∧
      files.descriptor fd = some (.file node position) ∧
      sends events = [(chunkResponse tls (some (chunkOf content chunk))).read 0
        (chunkResponse tls (some (chunkOf content chunk))).totalSize] := by
  obtain ⟨fuel, tls, run, ops⟩ := handled
  have hindex := chunkOffset_downloadChunkRequest junk c hoffset
  rw [downloadChunk_handler users fuel hid] at run
  obtain ⟨u, hend, calls⟩ := exec_reqFileDownloadChunk_iff.mp run
  cases hend
  cases calls with
  | notThere position closed hposition =>
      obtain ⟨moved, seeks, -⟩ := (FileRun.call_iff rfl).mp ops
      rw [hfd] at seeks
      exact absurd (seeks.seek_file hdescriptor).1 hposition
  | answered data =>
      obtain ⟨moved, seeks, ops⟩ := (FileRun.call_iff rfl).mp ops
      obtain ⟨after, reads, ops⟩ := (FileRun.call_iff rfl).mp ops
      rw [FileRun.send_iff, FileRun.nil_iff] at ops
      subst ops
      rw [hindex, hfd] at seeks
      rw [hfd] at reads
      obtain ⟨-, n, hn, rfl⟩ := seeks.seek_file hdescriptor
      obtain rfl := Int.ofNat.inj hn
      obtain ⟨rfl, m, rfl⟩ := reads.read_file (FileSystem.descriptor_setDescriptor_self ..) hcontent
      exact ⟨tls, m, _, rfl, rfl, FileSystem.descriptor_setDescriptor_self .., rfl⟩

theorem exists_handled_chunk {position : Nat} (hid : s.session.id ≠ [])
    (hfd : s.session.downloadFd = fd)
    (hdescriptor : s.files.descriptor fd = some (.file node position))
    (hcontent : s.files.content node = some content) (hoffset : chunk * maxChunkSize < 2 ^ 63) :
    ∃ events t, Handled users locate c s (downloadChunkRequest junk chunk).frame events t := by
  have run : Exec (reqFileDownloadChunk ⟨c, (downloadChunkRequest junk chunk).frame⟩
      ⟨s.session, s.g, Buffer.zero⟩) _ _ :=
    exec_reqFileDownloadChunk_iff.mpr ⟨_, rfl, .answered (some (chunkOf content chunk))⟩
  rw [← downloadChunk_handler users 0 hid, chunkOffset_downloadChunkRequest junk c hoffset] at run
  subst hfd
  have seeks : Step s.files (.seek s.session.downloadFd (chunk * maxChunkSize : Nat) _) _ :=
    .seek hdescriptor
  have reads : Step (s.files.setDescriptor s.session.downloadFd
      (some (.file node (chunk * maxChunkSize)))) (.read s.session.downloadFd maxChunkSize _) _ :=
    .read (FileSystem.descriptor_setDescriptor_self ..) hcontent rfl
  exact ⟨_, _, .mk 0 Buffer.zero run (.call rfl seeks (.call rfl reads (.send (.nil _))))⟩

end Chunk

/-! ### The loop of the client -/

/-- The index that a chunk request asks for. -/
def requestedChunk? : ClientEvent → Option Nat
  | ⟨.send frame, _⟩ =>
      if frame[1]? = some PacketType.reqFileDownloadChunk.toByte then
        some (PacketDownloadChunk.decodeChunkIndex fun i => frame.getD i 0)
      else none
  | _ => none

/-- A chunk that the client reads. -/
def chunkAnswer? : ClientEvent → Option (List UInt8)
  | ⟨.recv, (frame : List UInt8)⟩ =>
      if frame[1]? = some PacketType.respFileChunk.toByte then some frame else none
  | _ => none

/-- What the client writes to its file. -/
def payload? : ClientEvent → Option (List UInt8)
  | ⟨.write _ data count, _⟩ => some (data.read 0 count)
  | _ => none

/-- Some chunks of a file are requested, answered and written, in this order. -/
structure Chunks (content : List UInt8) (chunks : List Nat) (events : List ClientEvent) : Prop where
  requests : events.filterMap requestedChunk? = chunks
  answers : (events.filterMap chunkAnswer?).map (·.drop sizeofPacketHeader) =
    chunks.map (chunkOf content)
  sizes : ∀ frame ∈ events.filterMap chunkAnswer?,
    declaredSize frame = frame.length ∧ frame.length < 2 ^ 16
  payloads : events.filterMap payload? = chunks.map (chunkOf content)

theorem Chunks.nil (content : List UInt8) : Chunks content [] [] := by
  constructor <;> simp

/-- A call that has nothing to do with a chunk. -/
theorem Chunks.other (content : List UInt8) {e : ClientEvent} (hrequest : requestedChunk? e = none)
    (hanswer : chunkAnswer? e = none) (hpayload : payload? e = none) : Chunks content [] [e] := by
  constructor <;> simp [hrequest, hanswer, hpayload]

theorem Chunks.append {content : List UInt8} {chunks later : List Nat}
    {first second : List ClientEvent} (h : Chunks content chunks first)
    (h' : Chunks content later second) : Chunks content (chunks ++ later) (first ++ second) where
  requests := by rw [List.filterMap_append, h.requests, h'.requests]
  answers := by rw [List.filterMap_append, List.map_append, h.answers, h'.answers, List.map_append]
  sizes := by
    rw [List.filterMap_append]
    exact List.forall_mem_append.mpr ⟨h.sizes, h'.sizes⟩
  payloads := by rw [List.filterMap_append, h.payloads, h'.payloads, List.map_append]

section Rounds

variable {junk buf tls : Buffer} {chunk : Nat} {bytes content : List UInt8}

/-- The answer to a chunk request. -/
def chunkFrame (tls : Buffer) (bytes : List UInt8) : List UInt8 :=
  (chunkResponse tls (some bytes)).read 0 (chunkResponse tls (some bytes)).totalSize

/-- The bytes of the chunk are behind the header. -/
theorem read_chunkResponse (tls : Buffer) (bytes : List UInt8) :
    (chunkResponse tls (some bytes)).read sizeofPacketHeader bytes.length = bytes := by
  have hdata : (chunkResponse tls (some bytes)).read sizeofPacketHeader bytes.length =
      (tls.write 4 bytes).read 4 bytes.length := by
    apply Buffer.read_congr
    intro i hi _
    exact Buffer.setHeader_of_le _ _ _ hi
  rw [hdata, Buffer.read_write]

theorem length_chunkFrame (tls : Buffer) (h : bytes.length ≤ maxChunkSize) :
    (chunkFrame tls bytes).length = sizeofPacketHeader + bytes.length := by
  rw [chunkFrame, Buffer.length_read, totalSize_chunkResponse tls h]

theorem drop_chunkFrame (tls : Buffer) (h : bytes.length ≤ maxChunkSize) :
    (chunkFrame tls bytes).drop sizeofPacketHeader = bytes := by
  rw [chunkFrame, totalSize_chunkResponse tls h, Buffer.read_add, Nat.zero_add,
    read_chunkResponse, List.drop_left' (Buffer.length_read ..)]

theorem command_chunkFrame (tls : Buffer) (h : bytes.length ≤ maxChunkSize) :
    (chunkFrame tls bytes)[1]? = some PacketType.respFileChunk.toByte := by
  have hone : 1 < sizeofPacketHeader + bytes.length := by
    rw [sizeofPacketHeader]
    omega
  rw [chunkFrame, totalSize_chunkResponse tls h, Buffer.getElem?_read _ _ hone]
  exact congrArg some (Buffer.command_setHeader ..)

/-- What the client finds in its buffer after it read the answer. -/
theorem receive_chunkFrame (buf tls : Buffer) (h : bytes.length ≤ maxChunkSize) :
    responseLength (buf.write 0 (chunkFrame tls bytes)) = bytes.length ∧
      Buffer.read (fun i => (buf.write 0 (chunkFrame tls bytes)) (sizeofPacketHeader + i)) 0
        bytes.length = bytes := by
  have hsize := totalSize_chunkResponse tls h
  have hbuffer : ∀ i, i < sizeofPacketHeader + bytes.length →
      (buf.write 0 (chunkFrame tls bytes)) i = chunkResponse tls (some bytes) i := by
    intro i hi
    rw [chunkFrame, hsize, Buffer.write_read _ _ hi]
  constructor
  · have htotal : (buf.write 0 (chunkFrame tls bytes)).totalSize =
        sizeofPacketHeader + bytes.length := by
      rw [← hsize]
      apply Buffer.u16_congr
      intro i _ hi
      exact hbuffer i (by rw [sizeofPacketHeader]; omega)
    rw [responseLength, htotal]
    simp only [maxChunkSize, uint16Max, sizeofPacketHeader] at h ⊢
    omega
  · have hread :
        Buffer.read (fun i => (buf.write 0 (chunkFrame tls bytes)) (sizeofPacketHeader + i)) 0
          bytes.length = (chunkResponse tls (some bytes)).read sizeofPacketHeader bytes.length := by
      apply List.map_congr_left
      intro i hi
      have hlt : i < bytes.length := List.mem_range.mp hi
      rw [Nat.zero_add]
      exact hbuffer _ (by omega)
    rw [hread, read_chunkResponse]

/-- The calls of one round of the loop. -/
def roundEvents (junk buf : Buffer) (file : Int) (chunk : Nat) (frame : List UInt8)
    (written : Int) : List ClientEvent :=
  [⟨.send (downloadChunkRequest junk chunk).frame, true⟩, ⟨.recv, frame⟩,
    ⟨.write file (fun i => (buf.write 0 frame) (sizeofPacketHeader + i))
      (responseLength (buf.write 0 frame)), written⟩]

theorem chunks_round (junk buf tls : Buffer) (file written : Int) (h : chunk < 2 ^ 64)
    (hlength : (chunkOf content chunk).length ≤ maxChunkSize) :
    Chunks content [chunk]
      (roundEvents junk buf file chunk (chunkFrame tls (chunkOf content chunk)) written) := by
  have hone : 1 < (downloadChunkRequest junk chunk).totalSize := by
    rw [totalSize_downloadChunkRequest]
    decide
  have hcommand : (downloadChunkRequest junk chunk).frame[1]? =
      some PacketType.reqFileDownloadChunk.toByte := by
    rw [Buffer.frame, Buffer.getElem?_read _ _ hone]
    exact congrArg some command_downloadChunkRequest
  have hindex : PacketDownloadChunk.decodeChunkIndex
      (fun i => (downloadChunkRequest junk chunk).frame.getD i 0) = chunk :=
    decodeChunkIndex_downloadChunkRequest junk 0 h
  obtain ⟨hresponse, hdata⟩ := receive_chunkFrame buf tls hlength
  have answers : (roundEvents junk buf file chunk (chunkFrame tls (chunkOf content chunk))
      written).filterMap chunkAnswer? = [chunkFrame tls (chunkOf content chunk)] := by
    have here : chunkAnswer? ⟨.recv, chunkFrame tls (chunkOf content chunk)⟩ =
        some (chunkFrame tls (chunkOf content chunk)) := if_pos (command_chunkFrame tls hlength)
    rw [roundEvents, List.filterMap_cons_none (by rfl), List.filterMap_cons_some here,
      List.filterMap_cons_none (by rfl), List.filterMap_nil]
  have payloads : (roundEvents junk buf file chunk (chunkFrame tls (chunkOf content chunk))
      written).filterMap payload? =
        [Buffer.read (fun i => (buf.write 0 (chunkFrame tls (chunkOf content chunk)))
          (sizeofPacketHeader + i)) 0
            (responseLength (buf.write 0 (chunkFrame tls (chunkOf content chunk))))] := rfl
  constructor
  · simpa [roundEvents, requestedChunk?, hcommand] using hindex
  · simp [answers, drop_chunkFrame tls hlength]
  · rw [answers]
    intro frame hframe
    rw [List.mem_singleton.mp hframe]
    have bounded : ∀ bytes, some (chunkOf content chunk) = some bytes →
        bytes.length ≤ maxChunkSize := by
      rintro _ ⟨⟩
      exact hlength
    obtain ⟨other, hother, hsize⟩ := chunkResponse_oneFrame tls bounded
    cases hother
    refine ⟨hsize, ?_⟩
    rw [length_chunkFrame tls hlength]
    simp only [maxChunkSize, uint16Max, sizeofPacketHeader] at hlength ⊢
    omega
  · rw [payloads, hresponse, hdata, List.map_singleton]

/-- Before a round, the chunks before `chunk` were stored. -/
structure Downloading (fd file : Int) (node target : Node) (content old : List UInt8) (chunk : Nat)
    (w : ClientWorld Node) : Prop where
  login : w.server.session.id ≠ []
  downloadFd : w.server.session.downloadFd = fd
  position : ∃ n, w.server.files.descriptor fd = some (.file node n)
  stored : w.server.files.content node = some content
  unread : w.unread = []
  file : w.files.descriptor file = some (.file target (content.take (chunk * maxChunkSize)).length)
  written : w.files.content target = some (overwrite old (content.take (chunk * maxChunkSize)))

/-- One chunk more. -/
theorem take_succ_chunk (content : List UInt8) (chunk : Nat) :
    content.take ((chunk + 1) * maxChunkSize) =
      content.take (chunk * maxChunkSize) ++ chunkOf content chunk := by
  rw [Nat.succ_mul, List.take_add, chunkOf]

/-- The chunks that are announced start within the file. -/
theorem lt_chunkCount_iff {chunk size : Nat} :
    chunk < chunkCount size ↔ chunk * maxChunkSize < size := by
  have hdivides := Nat.div_add_mod' size maxChunkSize
  have hlt : size % maxChunkSize < maxChunkSize := Nat.mod_lt _ (by decide)
  unfold chunkCount
  constructor
  · intro h
    split at h
    · have hle : chunk * maxChunkSize ≤ size / maxChunkSize * maxChunkSize :=
        Nat.mul_le_mul_right _ (by omega)
      omega
    · have hle : (chunk + 1) * maxChunkSize ≤ size / maxChunkSize * maxChunkSize :=
        Nat.mul_le_mul_right _ (by omega)
      rw [Nat.succ_mul] at hle
      omega
  · intro h
    by_contra hnot
    have hle : chunkCount size * maxChunkSize ≤ chunk * maxChunkSize :=
      Nat.mul_le_mul_right _ (Nat.le_of_not_lt hnot)
    unfold chunkCount at hle
    split at hle
    · rw [Nat.succ_mul] at hle
      omega
    · rw [Nat.add_zero] at hle
      omega

theorem chunkCount_le (size : Nat) : chunkCount size ≤ size := by
  by_contra hlt
  have hpast : size * maxChunkSize < size := lt_chunkCount_iff.mp (Nat.lt_of_not_le hlt)
  have hle : size ≤ size * maxChunkSize := Nat.le_mul_of_pos_right size (by decide)
  omega

/-- The announced chunks cover the file. -/
theorem take_chunkCount (content : List UInt8) :
    content.take (chunkCount content.length * maxChunkSize) = content :=
  List.take_of_length_le (Nat.le_of_not_lt fun h => Nat.lt_irrefl _ (lt_chunkCount_iff.mpr h))

variable {users : DatabaseHandler} {locate home : Str → Node} {c : ConnId}
  {w w' : ClientWorld Node} {later : List ClientEvent} {fd file : Int} {node target : Node}
  {old : List UInt8}

/-- One round of the loop stores one chunk. -/
theorem Downloading.round {sent : Bool} {frame : List UInt8} {written : Int}
    (progress : Downloading fd file node target content old chunk w)
    (hchunk : chunk * maxChunkSize < 2 ^ 63)
    (run : ClientRun users locate home c w
      (⟨.send (downloadChunkRequest junk chunk).frame, sent⟩ :: ⟨.recv, frame⟩ ::
        ⟨.write file (fun i => (buf.write 0 frame) (sizeofPacketHeader + i))
          (responseLength (buf.write 0 frame)), written⟩ :: later) w') :
    ∃ tls w'', frame = chunkFrame tls (chunkOf content chunk) ∧
      Downloading fd file node target content old (chunk + 1) w'' ∧
      ClientRun users locate home c w'' later w' := by
  have hbounded : ∀ bytes, some (chunkOf content chunk) = some bytes →
      bytes.length ≤ maxChunkSize := by
    rintro _ ⟨⟩
    rw [length_chunkOf]
    exact Nat.min_le_left ..
  obtain ⟨-, events, server, handled, run⟩ := run.send_inv
  obtain ⟨n, hposition⟩ := progress.position
  obtain ⟨tls, m, files, rfl, hcontent, hdescriptor, hsends⟩ :=
    handled.downloadChunk progress.login progress.downloadFd hposition progress.stored hchunk
  obtain ⟨answer, hanswer, hsize⟩ : OneFrame [chunkFrame tls (chunkOf content chunk)] :=
    chunkResponse_oneFrame tls hbounded
  cases hanswer
  have hunread : w.unread ++ (sends events).flatten = chunkFrame tls (chunkOf content chunk) := by
    rw [progress.unread, hsends]
    simp [chunkFrame]
  obtain ⟨rfl, run⟩ := run.recv_frame hunread hsize
  obtain ⟨after, step, run⟩ := run.file_inv rfl
  obtain ⟨hresponse, hdata⟩ := receive_chunkFrame buf tls (hbounded _ rfl)
  rw [hresponse, hdata] at step
  obtain rfl := step.write_file progress.file progress.written
  refine ⟨tls, _, rfl, ?_, run⟩
  refine ⟨progress.login, progress.downloadFd, ⟨m, hdescriptor⟩, ?_, rfl, ?_, ?_⟩
  · exact (congrFun hcontent node).trans progress.stored
  · rw [take_succ_chunk, List.length_append]
    exact FileSystem.descriptor_setDescriptor_self ..
  · rw [take_succ_chunk, ← splice_overwrite]
    exact FileSystem.content_setContent_self ..

/-- The loop stores what is left, chunk by chunk. -/
theorem Downloading.loop {junk : Nat → Buffer} {left : Nat} {events : List ClientEvent}
    {out : Except Fault Unit} (progress : Downloading fd file node target content old chunk w)
    (hleft : chunk + left = chunkCount content.length) (hlength : content.length < 2 ^ 63)
    (run : Exec (downloadChunks junk file buf chunk left) events out)
    (did : ClientRun users locate home c w (events ++ later) w') :
    out = .ok () ∧ Chunks content (List.range' chunk left) events ∧
      ∃ w'', Downloading fd file node target content old (chunk + left) w'' ∧
        ClientRun users locate home c w'' later w' := by
  induction left generalizing chunk buf w events with
  | zero =>
      obtain ⟨rfl, rfl⟩ := Exec.ret_iff.mp run
      exact ⟨rfl, .nil content, w, progress, did⟩
  | succ left ih =>
      have hstarts : chunk * maxChunkSize < content.length := lt_chunkCount_iff.mp (by omega)
      have hindex : chunk < 2 ^ 64 := by
        simp only [maxChunkSize, uint16Max, sizeofPacketHeader] at hstarts
        omega
      obtain ⟨sent, rest, rfl, afterSend⟩ := exec_clientCall_iff.mp run
      obtain ⟨rfl, -⟩ := did.send_inv
      obtain ⟨frame, rest, rfl, afterRecv⟩ := exec_clientCall_iff.mp afterSend
      obtain ⟨written, rest, rfl, afterWrite⟩ := exec_clientCall_iff.mp afterRecv
      obtain ⟨tls, w'', rfl, next, did⟩ := progress.round (by omega) did
      obtain ⟨rfl, chunks, last, done, did⟩ := ih next (by omega) afterWrite did
      have here : Chunks content [chunk] (roundEvents (junk chunk) buf file chunk
          (chunkFrame tls (chunkOf content chunk)) written) :=
        chunks_round _ _ _ _ _ hindex (by rw [length_chunkOf]; exact Nat.min_le_left ..)
      refine ⟨rfl, here.append chunks, last, ?_, did⟩
      rw [show chunk + (left + 1) = chunk + 1 + left by omega]
      exact done

/-- A round can be made while there are bytes left. -/
theorem Downloading.exists_round (junk buf : Buffer)
    (progress : Downloading fd file node target content old chunk w)
    (hchunk : chunk * maxChunkSize < 2 ^ 63) :
    ∃ frame written w'',
      ClientRun users locate home c w
        [⟨.send (downloadChunkRequest junk chunk).frame, true⟩, ⟨.recv, frame⟩,
          ⟨.write file (fun i => (buf.write 0 frame) (sizeofPacketHeader + i))
            (responseLength (buf.write 0 frame)), written⟩] w'' := by
  obtain ⟨n, hposition⟩ := progress.position
  obtain ⟨events, server, handled⟩ : ∃ events server, Handled users locate c w.server
      (downloadChunkRequest junk chunk).frame events server :=
    exists_handled_chunk progress.login progress.downloadFd hposition progress.stored hchunk
  rcases hrecv : recvFromServer (w.unread ++ (sends events).flatten) with ⟨frame, rest⟩
  exact ⟨frame, _, _, .cons (.send handled) (.cons (.recv hrecv)
    (.cons (.file rfl (.write progress.file progress.written)) (.nil _)))⟩

theorem Downloading.exists_loop (junk : Nat → Buffer) {left : Nat}
    (progress : Downloading fd file node target content old chunk w)
    (hleft : chunk + left = chunkCount content.length) (hlength : content.length < 2 ^ 63) :
    ∃ events w'', Exec (downloadChunks junk file buf chunk left) events (.ok ()) ∧
      ClientRun users locate home c w events w'' ∧
        Downloading fd file node target content old (chunk + left) w'' := by
  induction left generalizing chunk buf w with
  | zero => exact ⟨[], w, .ret (), .nil w, progress⟩
  | succ left ih =>
      have hstarts : chunk * maxChunkSize < content.length := lt_chunkCount_iff.mp (by omega)
      obtain ⟨frame, written, w'', first⟩ :
          ∃ frame written w'', ClientRun users locate home c w [_, ⟨.recv, frame⟩, _] w'' :=
        progress.exists_round (junk chunk) buf (by omega)
      obtain ⟨tls, now, -, next, rest⟩ := progress.round (by omega) first
      obtain ⟨events, last, run, did, done⟩ : ∃ events last, Exec
          (downloadChunks junk file (buf.write 0 frame) (chunk + 1) left) events (.ok ()) ∧ _ :=
        ih next (by omega)
      cases rest
      refine ⟨_, last, ?_, first.append did, ?_⟩
      · exact exec_clientCall_iff.mpr ⟨true, _, rfl, exec_clientCall_iff.mpr
          ⟨frame, _, rfl, exec_clientCall_iff.mpr ⟨written, _, rfl, run⟩⟩⟩
      · rw [show chunk + (left + 1) = chunk + 1 + left by omega]
        exact done

end Rounds

/-! ### The whole download -/

section Download

variable {junk : Nat → Buffer} {junkOpen buf : Buffer} {name : Str} {content : List UInt8}

/-- The answer to a file that is opened. -/
def infoFrame (tls : Buffer) (chunks : Nat) (name : Str) : List UInt8 :=
  (createChunkInfoPacket tls chunks name).read 0 sizeofPacketDownloadedFileInfo

/-- The client finds the command of what it read. -/
theorem command_receive (buf : Buffer) {frame : List UInt8} {command : UInt8}
    (h : frame[1]? = some command) : (buf.write 0 frame).command = command := by
  obtain ⟨hlt, hget⟩ := List.getElem?_eq_some_iff.mp h
  simp only [Buffer.command, Buffer.write]
  rw [if_pos (by omega), List.getD_eq_getElem _ _ hlt]
  exact hget

theorem command_infoFrame (tls : Buffer) (chunks : Nat) (name : Str) :
    (infoFrame tls chunks name)[1]? = some PacketType.respFileOpened.toByte := by
  rw [infoFrame, Buffer.getElem?_read _ _ (by decide)]
  apply congrArg some
  have hcommand : (createChunkInfoPacket tls chunks name).command =
      PacketType.respFileOpened.toByte := by
    rw [createChunkInfoPacket, Buffer.command_write _ (by decide),
      Buffer.command_write _ (by decide), Buffer.command_setHeader]
  exact hcommand

theorem declaredSize_infoFrame (tls : Buffer) (chunks : Nat) (name : Str) :
    declaredSize (infoFrame tls chunks name) = (infoFrame tls chunks name).length := by
  rw [infoFrame, declaredSize_read _ (by decide), Buffer.length_read]
  simp [createChunkInfoPacket, Buffer.totalSize_write, sizeofPacketDownloadedFileInfo]

/-- The client reads what the server stored in its answer. -/
theorem receive_infoFrame (buf tls : Buffer) {chunks : Nat} (hchunks : chunks < 2 ^ 64)
    (hterminated : 0 ∉ name) (hfits : name.length < maxFilenameLen) :
    PacketDownloadedFileInfo.decodeChunks (buf.write 0 (infoFrame tls chunks name)) = chunks ∧
      PacketDownloadedFileInfo.decodeFileName (buf.write 0 (infoFrame tls chunks name)) =
        some name := by
  have hbuffer : ∀ i, i < sizeofPacketDownloadedFileInfo →
      (buf.write 0 (infoFrame tls chunks name)) i = createChunkInfoPacket tls chunks name i :=
    fun i hi => Buffer.write_read _ _ hi
  constructor
  · have hcount : ∀ i, 8 ≤ i → i < 8 + 8 → (buf.write 0 (infoFrame tls chunks name)) i =
        (tls.setHeader .respFileOpened sizeofPacketDownloadedFileInfo).write 8 (le64 chunks) i := by
      intro i _ hi
      rw [hbuffer i (by rw [sizeofPacketDownloadedFileInfo]; omega)]
      exact Buffer.write_of_lt _ _ _ hi
    rw [PacketDownloadedFileInfo.decodeChunks, Buffer.u64_congr hcount, Buffer.u64_write,
      Nat.mod_eq_of_lt hchunks]
  · have hname : ∀ i, 16 ≤ i → i < 16 + maxFilenameLen →
        (buf.write 0 (infoFrame tls chunks name)) i = createChunkInfoPacket tls chunks name i := by
      intro i _ hi
      apply hbuffer
      simp only [maxFilenameLen, sizeofPacketDownloadedFileInfo] at hi ⊢
      omega
    exact (Buffer.cString_congr hname).trans (Buffer.cString_write _ _ hterminated hfits)

variable {users : DatabaseHandler} {locate home : Str → Node} {c : ConnId}
  {w w' : ClientWorld Node} {events : List ClientEvent} {out : Except Fault Unit} {file : Int}
  {target : Node}

/-- The client opens its target. -/
theorem FileOpened.start {fd : Int} {before : Storage Node} {creat : Bool}
    {files : FileSystem Node UInt8} (opened : FileOpened locate name fd content before w.server)
    (hid : before.session.id ≠ []) (hunread : w.unread = [])
    (step : Step w.files (.opens target creat file) files) :
    Downloading fd file (locate (before.session.path name)) target content
      ((w.files.content target).getD []) 0 { w with files := files } := by
  cases step with
  | opens hfile hfree hcreat =>
  refine ⟨?_, ?_, ⟨0, opened.descriptor⟩, opened.stored, hunread, ?_, ?_⟩
  · simpa [opened.session] using hid
  · simp [opened.session]
  · rw [Nat.zero_mul, List.take_zero]
    exact FileSystem.descriptor_setDescriptor_self ..
  · rw [Nat.zero_mul, List.take_zero, overwrite_nil]
    exact FileSystem.content_setContent_self ..

/-- The client writes the file that was opened to its target. -/
theorem FileOpened.downloaded {fd : Int} {before : Storage Node} {p : Buffer}
    (opened : FileOpened locate name fd content before w.server)
    (hid : before.session.id ≠ []) (hunread : w.unread = [])
    (hchunks : PacketDownloadedFileInfo.decodeChunks p = chunkCount content.length)
    (hname : PacketDownloadedFileInfo.decodeFileName p = some name)
    (run : Exec (handleFileOpenedResp junk p) events out)
    (did : ClientRun users locate home c w events w') :
    out = .ok () ∧ Chunks content (List.range (chunkCount content.length)) events ∧
      w'.files.content (home name) =
        some (overwrite ((w.files.content (home name)).getD []) content) := by
  unfold handleFileOpenedResp at run
  rw [hname] at run
  obtain ⟨file, rest, rfl, afterOpen⟩ := exec_clientCall_iff.mp run
  obtain ⟨files, step, didLoop⟩ := did.file_inv rfl
  have start := opened.start hid hunread step
  rw [hchunks] at afterOpen
  rcases Exec.bind_cases afterOpen with ⟨u, loop, last, loops, afterLoop, rfl⟩ | ⟨e, loops, rfl⟩
  · obtain ⟨-, chunks, w'', done, didClose⟩ := start.loop (by omega) opened.size loops didLoop
    obtain ⟨result, rest, rfl, afterClose⟩ := exec_clientCall_iff.mp afterLoop
    obtain ⟨rfl, rfl⟩ := Exec.ret_iff.mp afterClose
    obtain ⟨closed, step, didAll⟩ := didClose.file_inv rfl
    cases didAll
    have written := done.written
    rw [Nat.zero_add, take_chunkCount] at written
    refine ⟨rfl, ?_, ?_⟩
    · have all := (Chunks.other content (e := ⟨.openFile name, file⟩) rfl rfl rfl).append
        (chunks.append (.other content (e := ⟨.close file, result⟩) rfl rfl rfl))
      simpa [List.range_eq_range'] using all
    · cases step with
      | close hopen => exact written
  · rw [← List.append_nil rest] at didLoop
    obtain ⟨hout, -⟩ := start.loop (by omega) opened.size loops didLoop
    cases hout

theorem FileOpened.exists_downloaded {fd file : Int} {before : Storage Node} (junk : Nat → Buffer)
    {p : Buffer} (opened : FileOpened locate name fd content before w.server)
    (hid : before.session.id ≠ []) (hunread : w.unread = [])
    (hchunks : PacketDownloadedFileInfo.decodeChunks p = chunkCount content.length)
    (hname : PacketDownloadedFileInfo.decodeFileName p = some name)
    (hfile : 0 ≤ file) (hfree : w.files.descriptor file = none) :
    ∃ events w', Exec (handleFileOpenedResp junk p) events (.ok ()) ∧
      ClientRun users locate home c w events w' := by
  have step : Step w.files (.opens (home name) true file) _ := .opens hfile hfree (.inl rfl)
  obtain ⟨loop, last, loops, didLoop, done⟩ :=
    (opened.start hid hunread step).exists_loop junk (Nat.zero_add _) opened.size
  have close : ClientStep users locate home c last ⟨.close file, (0 : Int)⟩ _ :=
    .file rfl (.close done.file)
  have openFile : ClientStep users locate home c w ⟨.openFile name, file⟩ _ := .file rfl step
  refine ⟨_, _, ?_, .cons openFile (didLoop.append (.cons close (.nil _)))⟩
  unfold handleFileOpenedResp
  rw [hname, hchunks]
  exact exec_clientCall_iff.mpr ⟨file, _, rfl,
    loops.bind (exec_clientCall_iff.mpr ⟨(0 : Int), _, rfl, .ret ()⟩)⟩

theorem requestedChunk?_createDownloadFilePacket (junk : Buffer) (name : Str) (sent : Bool) :
    requestedChunk? ⟨.send (createDownloadFilePacket junk name).frame, sent⟩ = none := by
  have hone : 1 < (createDownloadFilePacket junk name).totalSize := by
    rw [totalSize_createDownloadFilePacket]
    decide
  have hcommand : (createDownloadFilePacket junk name).frame[1]? =
      some PacketType.reqFileOpen.toByte := by
    rw [Buffer.frame, Buffer.getElem?_read _ _ hone]
    exact congrArg some (Buffer.command_setHeader ..)
  simp [requestedChunk?, hcommand]

theorem chunkAnswer?_infoFrame (tls : Buffer) (chunks : Nat) (name : Str) :
    chunkAnswer? ⟨.recv, infoFrame tls chunks name⟩ = none := by
  simp [chunkAnswer?, command_infoFrame]

/-- A file is downloaded. -/
structure Download (locate home : Str → Node) (name : Str) (content : List UInt8)
    (w w' : ClientWorld Node) (events : List ClientEvent) (out : Except Fault Unit) : Prop where
  existing : w.server.files.content (locate (w.server.session.path name)) = some content
  size : content.length < 2 ^ 63
  returned : out = .ok ()
  info : ∃ tls, events[1]? = some ⟨.recv, infoFrame tls (chunkCount content.length) name⟩
  chunks : Chunks content (List.range (chunkCount content.length)) events
  target : w'.files.content (home name) =
    some (overwrite ((w.files.content (home name)).getD []) content)

theorem chunkCount_lt {size : Nat} (h : size < 2 ^ 63) : chunkCount size < 2 ^ 64 :=
  (chunkCount_le size).trans_lt (h.trans (by decide))

/-- The client asks for a file: the answer is an error, or the file is downloaded. -/
theorem download_or_error (hname : TransferName w.server.session name)
    (hid : w.server.session.id ≠ []) (hunread : w.unread = [])
    (run : Exec (sendPackets junk buf [createDownloadFilePacket junkOpen name]) events out)
    (did : ClientRun users locate home c w events w') :
    (∃ tls, events[1]? = some ⟨.recv, sampleFrame tls .respIoError⟩) ∨
      ∃ content, Download locate home name content w w' events out := by
  obtain ⟨sent, rest, rfl, afterSend⟩ := exec_clientCall_iff.mp run
  obtain ⟨rfl, first, server, handled, didRecv⟩ := did.send_inv
  obtain ⟨frame, rest, rfl, afterRecv⟩ := exec_clientCall_iff.mp afterSend
  rcases handled.fileOpen hname hid with ⟨tls, hsends⟩ | ⟨fd, content, tls, opened, hsends⟩
  · obtain ⟨answer, hanswer, hsize⟩ := oneFrame_sampleFrame tls .respIoError
    cases hanswer
    have hread : w.unread ++ (sends first).flatten = sampleFrame tls .respIoError := by
      simp [hunread, hsends]
    obtain ⟨rfl, -⟩ := didRecv.recv_frame hread hsize
    exact .inl ⟨tls, rfl⟩
  · have hread : w.unread ++ (sends first).flatten =
        infoFrame tls (chunkCount content.length) name := by
      simp [hunread, hsends, infoFrame]
    obtain ⟨rfl, didOpen⟩ := didRecv.recv_frame hread (declaredSize_infoFrame ..)
    obtain ⟨hchunks, hfile⟩ :=
      receive_infoFrame buf tls (chunkCount_lt opened.size) hname.terminated hname.fits
    have hcommand := command_receive buf (command_infoFrame tls (chunkCount content.length) name)
    dsimp only at afterRecv
    rw [handleResponsePacket_opened junk hcommand, Prog.bind_assoc] at afterRecv
    have sendInfo : Chunks content []
        [⟨.send (createDownloadFilePacket junkOpen name).frame, true⟩] :=
      .other content (requestedChunk?_createDownloadFilePacket ..) rfl rfl
    have recvInfo : Chunks content []
        [⟨.recv, infoFrame tls (chunkCount content.length) name⟩] :=
      .other content rfl (chunkAnswer?_infoFrame ..) rfl
    rcases Exec.bind_cases afterRecv with ⟨u, opening, last, opens, ends, rfl⟩ | ⟨e, opens, rfl⟩
    · obtain ⟨rfl, rfl⟩ := Exec.ret_iff.mp ends
      rw [List.append_nil] at didOpen ⊢
      obtain ⟨-, chunks, htarget⟩ := opened.downloaded hid rfl hchunks hfile opens didOpen
      refine .inr ⟨content, opened.existing, opened.size, rfl, ⟨tls, rfl⟩, ?_, htarget⟩
      simpa using sendInfo.append (recvInfo.append chunks)
    · obtain ⟨hout, -⟩ := opened.downloaded hid rfl hchunks hfile opens didOpen
      cases hout

/-- A run whose second call reads the answer to a file that is opened. -/
theorem downloaded {info : List UInt8} (hname : TransferName w.server.session name)
    (hid : w.server.session.id ≠ []) (hunread : w.unread = [])
    (run : Exec (sendPackets junk buf [createDownloadFilePacket junkOpen name]) events out)
    (did : ClientRun users locate home c w events w')
    (hinfo : events[1]? = some ⟨.recv, info⟩)
    (opened : info[1]? = some PacketType.respFileOpened.toByte) :
    ∃ content, Download locate home name content w w' events out := by
  refine (download_or_error hname hid hunread run did).resolve_left ?_
  rintro ⟨tls, herror⟩
  rw [hinfo] at herror
  cases herror
  rw [sampleFrame_command] at opened
  cases opened

/-- With free descriptors on both sides, the download of a file comes to its end. -/
theorem exists_download (fd file : Int) (junk : Nat → Buffer) (buf junkOpen : Buffer)
    (hname : TransferName w.server.session name) (hid : w.server.session.id ≠ [])
    (hunread : w.unread = []) (hfd : 0 < fd) (hfree : w.server.files.descriptor fd = none)
    (hcontent : w.server.files.content (locate (w.server.session.path name)) = some content)
    (hlength : content.length < 2 ^ 63) (hfile : 0 ≤ file)
    (hfreeFile : w.files.descriptor file = none) :
    ∃ events w' tls,
      Exec (sendPackets junk buf [createDownloadFilePacket junkOpen name]) events (.ok ()) ∧
        ClientRun users locate home c w events w' ∧
          events[1]? = some ⟨.recv, infoFrame tls (chunkCount content.length) name⟩ := by
  obtain ⟨tls, first, server, handled, opened, hsends⟩ : ∃ tls first server,
      Handled users locate c w.server (createDownloadFilePacket junkOpen name).frame first server ∧
        _ := exists_handled_fileOpen hname hid hfd hfree hcontent hlength
  have hread : w.unread ++ (sends first).flatten =
      infoFrame tls (chunkCount content.length) name := by
    simp [hunread, hsends, infoFrame]
  have recv : ClientStep users locate home c
      ⟨server, w.files, w.unread ++ (sends first).flatten⟩
      ⟨.recv, infoFrame tls (chunkCount content.length) name⟩ ⟨server, w.files, []⟩ := by
    apply ClientStep.recv
    rw [hread]
    exact recvFromServer_frame (declaredSize_infoFrame ..)
  obtain ⟨hchunks, hname'⟩ :=
    receive_infoFrame buf tls (chunkCount_lt opened.size) hname.terminated hname.fits
  obtain ⟨rest, last, opens, didOpen⟩ := opened.exists_downloaded (w := ⟨server, w.files, []⟩) junk
    hid rfl hchunks hname' hfile hfreeFile
  have hcommand := command_receive buf (command_infoFrame tls (chunkCount content.length) name)
  refine ⟨_, last, tls, ?_, .cons (.send handled) (.cons recv didOpen), rfl⟩
  refine exec_clientCall_iff.mpr ⟨true, _, rfl, exec_clientCall_iff.mpr ⟨_, _, rfl, ?_⟩⟩
  dsimp only
  rw [handleResponsePacket_opened junk hcommand, Prog.bind_assoc, ← List.append_nil rest]
  exact opens.bind (.ret ())

/-- The loop of the client asks for the announced chunks in order, and writes what the
answers carry. -/
structure FaithfulDownload (announced : Nat) (content : List UInt8) (events : List ClientEvent) :
    Prop where
  exact : maxChunkSize ∣ content.length → announced = content.length / maxChunkSize
  requests : events.filterMap requestedChunk? = List.range announced
  within : ∀ chunk ∈ events.filterMap requestedChunk?, chunk * maxChunkSize < content.length
  sizes : ∀ frame ∈ events.filterMap chunkAnswer?,
    declaredSize frame = frame.length ∧ frame.length < 2 ^ 16
  answers : (events.filterMap chunkAnswer?).map (·.drop sizeofPacketHeader) =
    events.filterMap payload?
  pieces : ∀ bytes ∈ events.filterMap payload?, bytes ≠ [] ∧ bytes.length ≤ maxChunkSize
  whole : (events.filterMap payload?).flatten = content

theorem Chunks.faithful (h : Chunks content (List.range (chunkCount content.length)) events) :
    FaithfulDownload (chunkCount content.length) content events where
  exact := by
    intro hdivides
    rw [chunkCount, if_neg (not_ne_iff.mpr (Nat.mod_eq_zero_of_dvd hdivides)), Nat.add_zero]
  requests := h.requests
  within := by
    rw [h.requests]
    intro chunk hchunk
    exact lt_chunkCount_iff.mp (List.mem_range.mp hchunk)
  sizes := h.sizes
  answers := h.answers.trans h.payloads.symm
  pieces := by
    rw [h.payloads]
    intro bytes hbytes
    obtain ⟨chunk, hchunk, rfl⟩ := List.mem_map.mp hbytes
    have hwithin : chunk * maxChunkSize < content.length :=
      lt_chunkCount_iff.mp (List.mem_range.mp hchunk)
    have hmax : 0 < maxChunkSize := by decide
    rw [← List.length_pos_iff, length_chunkOf]
    omega
  whole := by
    rw [h.payloads]
    exact (flatten_wholePieces maxChunkSize _ content).trans (take_chunkCount content)

end Download

/-- A download that the server announces is faithful: every announced chunk is within the file, its
answer fits its header, and the pieces that are written make up the file. The session is logged
in, the name is accepted and its path fits, and nothing is left to read before the command. -/
theorem download_faithful {users : DatabaseHandler} {locate home : Str → Node} {c : ConnId}
    {w w' : ClientWorld Node} {junk : Nat → Buffer} {junkOpen buf : Buffer} {name : Str}
    {events : List ClientEvent} {out : Except Fault Unit} {info : List UInt8}
    (hname : TransferName w.server.session name) (login : w.server.session.id ≠ [])
    (hunread : w.unread = [])
    (run : Exec (sendPackets junk buf [createDownloadFilePacket junkOpen name]) events out)
    (did : ClientRun users locate home c w events w')
    (hinfo : events[1]? = some ⟨.recv, info⟩)
    (opened : info[1]? = some PacketType.respFileOpened.toByte) :
    ∃ content, w.server.files.content (locate (w.server.session.path name)) = some content ∧
      out = .ok () ∧ FaithfulDownload (PacketDownloadedFileInfo.decodeChunks (buf.write 0 info))
        content events := by
  obtain ⟨content, download⟩ := downloaded hname login hunread run did hinfo opened
  obtain ⟨tls, hframe⟩ := download.info
  rw [hinfo] at hframe
  cases hframe
  obtain ⟨hchunks, -⟩ :=
    receive_infoFrame buf tls (chunkCount_lt download.size) hname.terminated hname.fits
  rw [hchunks]
  exact ⟨content, download.existing, download.returned, download.chunks.faithful⟩

/-- The files of a client that has none. -/
def exampleHome : FileSystem Str UInt8 where
  content := fun _ => none
  descriptor := fun _ => none

/-- The server has a file of one byte. -/
def exampleWorld : ClientWorld Str where
  server := { exampleStorage with
    files := exampleStorage.files.setContent (ascii "./tmp/1/a") [7] }
  files := exampleHome
  unread := []

/-- A file of one byte is downloaded. -/
theorem download_faithful_byte :
    ∃ w' events info,
      ClientRun exampleUsers id id 0 exampleWorld events w' ∧ events[1]? = some ⟨.recv, info⟩ ∧
        FaithfulDownload (PacketDownloadedFileInfo.decodeChunks (Buffer.zero.write 0 info)) [7]
          events := by
  have hcontent : exampleWorld.server.files.content (ascii "./tmp/1/a") = some [7] :=
    FileSystem.content_setContent_self ..
  obtain ⟨events, w', tls, run, did, hinfo⟩ :
      ∃ events w' tls, _ ∧ ClientRun exampleUsers id id 0 exampleWorld events w' ∧ _ :=
    exists_download 6 3 (fun _ => Buffer.zero) Buffer.zero Buffer.zero
      transferName_example (by decide) rfl (by decide) rfl hcontent (by decide) (by decide) rfl
  obtain ⟨content, existing, -, faithful⟩ := download_faithful transferName_example (by decide) rfl
    run did hinfo (command_infoFrame ..)
  obtain rfl : [7] = content := Option.some.inj (hcontent.symm.trans existing)
  exact ⟨w', events, _, did, hinfo, faithful⟩

end ConcurrentTcp
