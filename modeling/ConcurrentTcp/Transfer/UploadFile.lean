import ConcurrentTcp.Base.Transition
import ConcurrentTcp.Server.AdminPrivilege
import ConcurrentTcp.Server.Outcomes
import ConcurrentTcp.Server.Storage

/-!
Uploads.

`HandledAll.uploaded` follows the packets of one file through the three upload
handlers: the target is opened and its content overwritten from the start, piece by
piece. `uploads_faithful_iff` says for which files of a run of uploads this leaves
the uploaded content.
-/

namespace ConcurrentTcp

open Interaction Files Transition

variable {Node : Type} [DecidableEq Node]

/-! ### The packets of the client -/

/-- A packet of this type with the bytes `chunk` behind its header. -/
structure CarriesChunk (packet : Buffer) (ty : PacketType) (chunk : List UInt8) : Prop where
  command : packet.command = ty.toByte
  totalSize : packet.totalSize = sizeofPacketHeader + chunk.length
  data : packet.read sizeofPacketHeader chunk.length = chunk

/-- The packets after the start: the last one ends the transfer. -/
inductive ChunkPackets : List (List UInt8) → List Buffer → Prop where
  | last (junk : Buffer) (chunk : List UInt8) :
      ChunkPackets [chunk] [endTransfer (fileTransferChunk junk chunk)]
  | more (junk : Buffer) (chunk : List UInt8) {chunks : List (List UInt8)} {packets : List Buffer} :
      ChunkPackets chunks packets →
      ChunkPackets (chunk :: chunks) (fileTransferChunk junk chunk :: packets)

section Packets

variable {packet : Buffer} {chunk : List UInt8}

theorem carriesChunk_fileTransferChunk (junk : Buffer) (h : chunk.length ≤ maxChunkSize) :
    CarriesChunk (fileTransferChunk junk chunk) .reqFileTransferChunk chunk where
  command := by
    rw [fileTransferChunk, Buffer.command_write _ (by decide), Buffer.command_setHeader]
  totalSize := by
    have hfits : sizeofPacketHeader + chunk.length < 2 ^ 16 := by
      simp only [maxChunkSize, uint16Max, sizeofPacketHeader] at h ⊢
      omega
    rw [totalSize_fileTransferChunk, Nat.mod_eq_of_lt hfits]
  data := Buffer.read_write ..

/-- Only the command of the last packet differs. -/
theorem CarriesChunk.endTransfer {ty : PacketType} (h : CarriesChunk packet ty chunk) :
    CarriesChunk (endTransfer packet) .reqFileTransferEnd chunk where
  command := command_endTransfer packet
  totalSize := (totalSize_endTransfer packet).trans h.totalSize
  data := (read_endTransfer (by decide)).trans h.data

theorem chunkPackets_mapIdx (junk : Nat → Buffer) (chunk : List UInt8)
    (chunks : List (List UInt8)) :
    let packets := (chunk :: chunks).mapIdx fun i chunk => fileTransferChunk (junk i) chunk
    ChunkPackets (chunk :: chunks)
      (packets.dropLast ++ (packets.getLast?.map ConcurrentTcp.endTransfer).toList) := by
  induction chunks generalizing junk chunk with
  | nil => exact .last (junk 0) chunk
  | cons next chunks ih =>
      have later := ChunkPackets.more (junk 0) chunk (ih (fun i => junk (i + 1)) next)
      simpa [List.mapIdx_cons] using later

/-- A file with content is a start packet and its chunks. -/
theorem createFileTransferPackets_of_ne (junk : Nat → Buffer) (filePath : Str)
    {content : List UInt8} (size : Nat) (h : content ≠ []) :
    ∃ packets, ChunkPackets (breakVectorInto size content) packets ∧
      createFileTransferPackets junk filePath content size =
        fileTransferStart (junk 0) filePath :: packets := by
  have hflatten := flatten_breakVectorInto size content
  cases hchunks : breakVectorInto size content with
  | nil =>
      rw [hchunks] at hflatten
      exact absurd hflatten.symm h
  | cons chunk chunks =>
      refine ⟨_, chunkPackets_mapIdx (fun i => junk (i + 1)) chunk chunks, ?_⟩
      simp [createFileTransferPackets, hchunks, List.mapIdx_cons]

/-- An empty file is one packet, the start packet with the command of the end. -/
theorem createFileTransferPackets_nil (junk : Nat → Buffer) (filePath : Str) (size : Nat) :
    createFileTransferPackets junk filePath [] size =
      [endTransfer (fileTransferStart (junk 0) filePath)] := by
  simp [createFileTransferPackets, breakVectorInto]

end Packets

/-! ### The handlers -/

section Handlers

variable {users : DatabaseHandler} {locate : Str → Node} {c : ConnId} {s t : Storage Node}
  {events : List ServerEvent}

/-- What is answered to a packet with data. -/
inductive AnswersData : PacketType → PacketType → Prop where
  | chunk : AnswersData .reqFileTransferChunk .respContinue
  | last : AnswersData .reqFileTransferEnd .respFileTransferOk

section Data

variable {packet : Buffer} {chunk : List UInt8} {ty answer : PacketType}

theorem CarriesChunk.four_le (carries : CarriesChunk packet ty chunk) : 4 ≤ packet.totalSize := by
  rw [carries.totalSize, sizeofPacketHeader]
  omega

theorem CarriesChunk.handler (fuel : Nat) {u : HandlerState}
    (carries : CarriesChunk packet ty chunk) (hanswer : AnswersData ty answer)
    (hid : u.session.id ≠ []) :
    processPacket users fuel (ConnectionBuffer.buffer ⟨c, packet.frame⟩) ⟨c, packet.frame⟩ u =
      writeFileData answer ⟨c, packet.frame⟩ u := by
  cases hanswer with
  | chunk => exact processPacket_frame carries.four_le carries.command (by decide) hid rfl
  | last => exact processPacket_frame carries.four_le carries.command (by decide) hid rfl

theorem CarriesChunk.payloadLength_eq (carries : CarriesChunk packet ty chunk)
    (hlength : chunk.length ≤ maxChunkSize) :
    payloadLength ⟨c, packet.frame⟩ = chunk.length := by
  simp only [payloadLength, totalSize_frame carries.four_le, carries.totalSize]
  simp only [maxChunkSize, uint16Max, sizeofPacketHeader] at hlength ⊢
  omega

theorem CarriesChunk.read_fileData (carries : CarriesChunk packet ty chunk) :
    (fileData ⟨c, packet.frame⟩).read 0 chunk.length = chunk := by
  have hfits : sizeofPacketHeader + chunk.length ≤ packet.totalSize :=
    Nat.le_of_eq carries.totalSize.symm
  have hframe := read_frame (c := c) hfits
  rw [carries.data] at hframe
  rw [← hframe]
  simp [fileData, Buffer.read]

/-- A packet with data is written where the session's descriptor points. -/
theorem Handled.writes (carries : CarriesChunk packet ty chunk) (hanswer : AnswersData ty answer)
    (hlength : chunk.length ≤ maxChunkSize) (hid : s.session.id ≠ [])
    (handled : Handled users locate c s packet.frame events t) :
    ∃ tls files count, Step s.files (.write s.session.fd chunk count) files ∧
      t = ⟨s.session, s.g, files⟩ ∧ sends events = [sampleFrame tls answer] := by
  obtain ⟨fuel, tls, run, ops⟩ := handled
  rw [carries.handler _ hanswer hid] at run
  obtain ⟨written, rfl, hend⟩ := exec_writeFileData_iff.mp run
  cases hend
  rw [carries.payloadLength_eq hlength, FileRun.call_iff rfl] at ops
  obtain ⟨after, step, rest⟩ := ops
  rw [FileRun.send_iff, FileRun.nil_iff] at rest
  subst rest
  rw [carries.read_fileData] at step
  exact ⟨tls, _, written, step, rfl, rfl⟩

theorem exists_handled_write {files : FileSystem Node UInt8} {count : Int}
    (carries : CarriesChunk packet ty chunk) (hanswer : AnswersData ty answer)
    (hlength : chunk.length ≤ maxChunkSize) (hid : s.session.id ≠ [])
    (step : Step s.files (.write s.session.fd chunk count) files) :
    ∃ events, Handled users locate c s packet.frame events ⟨s.session, s.g, files⟩ := by
  have run : Exec (writeFileData answer ⟨c, packet.frame⟩ ⟨s.session, s.g, Buffer.zero⟩) _ _ :=
    exec_writeFileData_iff.mpr ⟨count, rfl, rfl⟩
  rw [← carries.handler 0 hanswer hid] at run
  refine ⟨_, .mk 0 Buffer.zero run ?_⟩
  rw [carries.payloadLength_eq hlength, FileRun.call_iff rfl, carries.read_fileData]
  exact ⟨_, step, .send (.nil _)⟩

end Data

section Start

variable {junk : Buffer} {name : Str}

theorem totalSize_fileTransferStart :
    (fileTransferStart junk name).totalSize = sizeofPacketTransferFileStart := by
  simp [fileTransferStart, sizeofPacketTransferFileStart]

theorem fileTransferStart_handler (users : DatabaseHandler) (fuel : Nat) {u : HandlerState}
    (hid : u.session.id ≠ []) :
    processPacket users fuel (ConnectionBuffer.buffer ⟨c, (fileTransferStart junk name).frame⟩)
      ⟨c, (fileTransferStart junk name).frame⟩ u =
        reqFileTransferStart ⟨c, (fileTransferStart junk name).frame⟩ u := by
  have hsize : 4 ≤ (fileTransferStart junk name).totalSize := by
    rw [totalSize_fileTransferStart]
    decide
  have hcommand : (fileTransferStart junk name).command = PacketType.reqFileTransferStart.toByte :=
    Buffer.command_setHeader ..
  exact processPacket_frame hsize hcommand (by decide) hid rfl

/-- The server reads the name that the client stored. -/
theorem decodeFileName_fileTransferStart (junk : Buffer) (c : ConnId) (hterminated : 0 ∉ name)
    (hfits : name.length < maxFilenameLen) :
    PacketTransferFileStart.decodeFileName
      (ConnectionBuffer.buffer ⟨c, (fileTransferStart junk name).frame⟩) = some name := by
  rw [← Buffer.cString_write junk 20 hterminated hfits]
  unfold PacketTransferFileStart.decodeFileName
  rw [cString_frame (by rw [totalSize_fileTransferStart]; decide)]
  exact Buffer.cString_setHeader _ _ _ _ (by decide)

theorem TransferName.snprintfPath_eq {session : Session} (hname : TransferName session name) :
    snprintfPath session name = session.path name := by
  have hfits := hname.pathFits
  apply List.take_of_length_le
  omega

/-- The start packet opens the target. -/
theorem Handled.opens (hname : TransferName s.session name) (hid : s.session.id ≠ [])
    (handled : Handled users locate c s (fileTransferStart junk name).frame events t) :
    ∃ tls files fd,
      Step s.files (.opens (locate (s.session.path name)) true fd) files ∧
        t = ⟨{ s.session with fd := fd }, s.g, files⟩ ∧
        sends events = [sampleFrame tls .respContinue] := by
  obtain ⟨fuel, tls, run, ops⟩ := handled
  have hdecode := decodeFileName_fileTransferStart junk c hname.terminated hname.fits
  rw [fileTransferStart_handler users fuel hid] at run
  obtain ⟨file, rfl, hend⟩ := (exec_reqFileTransferStart_iff hdecode hname.valid).mp run
  cases hend
  rw [hname.snprintfPath_eq, FileRun.call_iff rfl] at ops
  obtain ⟨after, step, rest⟩ := ops
  rw [FileRun.send_iff, FileRun.nil_iff] at rest
  subst rest
  exact ⟨tls, _, file, step, rfl, rfl⟩

theorem exists_handled_open {files : FileSystem Node UInt8} {fd : Int}
    (hname : TransferName s.session name) (hid : s.session.id ≠ [])
    (step : Step s.files (.opens (locate (s.session.path name)) true fd) files) :
    ∃ events, Handled users locate c s (fileTransferStart junk name).frame events
      ⟨{ s.session with fd := fd }, s.g, files⟩ := by
  have hdecode := decodeFileName_fileTransferStart junk c hname.terminated hname.fits
  have run : Exec (reqFileTransferStart ⟨c, (fileTransferStart junk name).frame⟩
      ⟨s.session, s.g, Buffer.zero⟩) _ _ :=
    (exec_reqFileTransferStart_iff hdecode hname.valid).mpr ⟨fd, rfl, rfl⟩
  rw [← fileTransferStart_handler users 0 hid] at run
  refine ⟨_, .mk 0 Buffer.zero run ?_⟩
  rw [hname.snprintfPath_eq, FileRun.call_iff rfl]
  exact ⟨_, step, .send (.nil _)⟩

end Start

/-- Between the start of a transfer and now, `written` was stored in the target. -/
structure Uploading (node : Node) (fd : Int) (old written : List UInt8) (start now : Storage Node) :
    Prop where
  session : now.session = { start.session with fd := fd }
  g : now.g = start.g
  descriptor : now.files.descriptor fd = some (.file node written.length)
  content : now.files.content node = some (overwrite old written)
  touches : OnlyTouches node fd start.files now.files

variable {start : Storage Node} {node : Node} {fd : Int} {old written : List UInt8}

theorem Uploading.opened {creat : Bool} {files : FileSystem Node UInt8}
    (step : Step start.files (.opens node creat fd) files) :
    Uploading node fd ((start.files.content node).getD []) [] start
      ⟨{ start.session with fd := fd }, start.g, files⟩ := by
  cases step with
  | opens hfd hfree hfile =>
      refine ⟨rfl, rfl, FileSystem.descriptor_setDescriptor_self .., ?_, ?_⟩
      · simp
      · exact .setContent_setDescriptor ..

/-- The next piece goes behind what is there. -/
theorem Uploading.write {chunk : List UInt8} {count : Int} {files : FileSystem Node UInt8}
    (progress : Uploading node fd old written start s)
    (step : Step s.files (.write fd chunk count) files) :
    Uploading node fd old (written ++ chunk) start ⟨s.session, s.g, files⟩ := by
  obtain rfl := step.write_file progress.descriptor progress.content
  refine ⟨progress.session, progress.g, ?_, ?_, ?_⟩
  · simp
  · simp [splice_overwrite]
  · exact progress.touches.trans (.setContent_setDescriptor ..)

/-- The data packets of one file, in order. -/
theorem ChunkPackets.handled {chunks : List (List UInt8)} {packets : List Buffer}
    (h : ChunkPackets chunks packets) (hlength : ∀ chunk ∈ chunks, chunk.length ≤ maxChunkSize)
    (hid : start.session.id ≠ []) (progress : Uploading node fd old written start s)
    (handled : HandledAll users locate c s (packets.map Buffer.frame) events t) :
    Uploading node fd old (written ++ chunks.flatten) start t ∧
      ∃ tls, (sends events).getLast? = some (sampleFrame tls .respFileTransferOk) := by
  have hlogin : s.session.id ≠ [] := by
    rw [progress.session]
    exact hid
  have hfd : s.session.fd = fd := by rw [progress.session]
  induction h generalizing s events written with
  | last junk chunk =>
      have hchunk := hlength chunk (by simp)
      cases handled with
      | cons first rest =>
      cases rest with
      | nil =>
      obtain ⟨tls, files, count, step, rfl, hsends⟩ :=
        first.writes (carriesChunk_fileTransferChunk junk hchunk).endTransfer .last hchunk hlogin
      rw [hfd] at step
      refine ⟨by simpa using progress.write step, tls, ?_⟩
      simp [hsends]
  | more junk chunk packets ih =>
      obtain ⟨hchunk, hchunks⟩ := List.forall_mem_cons.mp hlength
      cases handled with
      | cons first rest =>
      obtain ⟨tls, files, count, step, rfl, hsends⟩ :=
        first.writes (carriesChunk_fileTransferChunk junk hchunk) .chunk hchunk hlogin
      rw [hfd] at step
      obtain ⟨done, tls, hlast⟩ := ih hchunks (progress.write step) rest hlogin hfd
      refine ⟨by simpa using done, tls, ?_⟩
      rw [sends_append, List.getLast?_append, hlast, Option.some_or]

theorem ChunkPackets.exists_handled {chunks : List (List UInt8)} {packets : List Buffer}
    (h : ChunkPackets chunks packets) (hlength : ∀ chunk ∈ chunks, chunk.length ≤ maxChunkSize)
    (hid : s.session.id ≠ []) {position : Nat} {old : List UInt8}
    (hfd : s.files.descriptor s.session.fd = some (.file node position))
    (hold : s.files.content node = some old) :
    ∃ events t, HandledAll users locate c s (packets.map Buffer.frame) events t := by
  induction h generalizing s position old with
  | last junk chunk =>
      have hchunk := hlength chunk (by simp)
      obtain ⟨events, handled⟩ :=
        exists_handled_write (carriesChunk_fileTransferChunk junk hchunk).endTransfer .last hchunk
          hid (.write hfd hold)
      exact ⟨_, _, .cons handled (.nil _)⟩
  | more junk chunk packets ih =>
      obtain ⟨hchunk, hchunks⟩ := List.forall_mem_cons.mp hlength
      obtain ⟨events, handled⟩ :=
        exists_handled_write (carriesChunk_fileTransferChunk junk hchunk) .chunk hchunk hid
          (.write hfd hold)
      let now : Storage Node := ⟨s.session, s.g,
        (s.files.setContent node (splice old position chunk)).setDescriptor s.session.fd
          (some (.file node (position + chunk.length)))⟩
      have hnow : now.files.descriptor now.session.fd =
          some (.file node (position + chunk.length)) :=
        FileSystem.descriptor_setDescriptor_self ..
      have hcontent : now.files.content node = some (splice old position chunk) :=
        FileSystem.content_setContent_self ..
      obtain ⟨later, t, rest⟩ := ih (s := now) hchunks hid hnow hcontent
      exact ⟨_, t, .cons handled rest⟩

/-- With a free descriptor, the upload of a file comes to its end. -/
theorem exists_uploaded {name : Str} {content : List UInt8} {fd : Int} (junk : Nat → Buffer)
    (hname : TransferName s.session name) (hid : s.session.id ≠ []) (hcontent : content ≠ [])
    (hfd : 0 ≤ fd) (hfree : s.files.descriptor fd = none) :
    ∃ events t, HandledAll users locate c s
      ((createFileTransferPackets junk name content maxChunkSize).map Buffer.frame) events t := by
  obtain ⟨packets, chunks, hpackets⟩ :=
    createFileTransferPackets_of_ne junk name maxChunkSize hcontent
  rw [hpackets]
  have opens : Step s.files (.opens (locate (s.session.path name)) true fd) _ :=
    .opens hfd hfree (.inl rfl)
  obtain ⟨events, opened⟩ : ∃ events, Handled users locate c s _ events _ :=
    exists_handled_open hname hid opens
  have hlength : ∀ chunk ∈ breakVectorInto maxChunkSize content, chunk.length ≤ maxChunkSize :=
    fun chunk hmem => (length_of_mem_breakVectorInto (by decide) hmem).2
  have progress := Uploading.opened opens
  obtain ⟨later, t, rest⟩ := chunks.exists_handled (s := ⟨{ s.session with fd := fd }, s.g, _⟩)
    hlength hid progress.descriptor progress.content
  exact ⟨_, t, .cons opened rest⟩

/-- The packets of a file that is not empty overwrite the target from its start. -/
theorem HandledAll.uploaded {junk : Nat → Buffer} {name : Str} {content : List UInt8}
    (hname : TransferName s.session name) (hid : s.session.id ≠ []) (hcontent : content ≠ [])
    (handled : HandledAll users locate c s
      ((createFileTransferPackets junk name content maxChunkSize).map Buffer.frame) events t) :
    ∃ fd, s.files.descriptor fd = none ∧
      Uploading (locate (s.session.path name)) fd
        ((s.files.content (locate (s.session.path name))).getD []) content s t ∧
      ∃ tls, (sends events).getLast? = some (sampleFrame tls .respFileTransferOk) := by
  obtain ⟨packets, chunks, hpackets⟩ :=
    createFileTransferPackets_of_ne junk name maxChunkSize hcontent
  rw [hpackets] at handled
  cases handled with
  | cons first rest =>
  obtain ⟨tls, files, fd, step, rfl, hsends⟩ := first.opens hname hid
  have hfree : s.files.descriptor fd = none := by
    cases step with
    | opens hfd hfree hfile => exact hfree
  have hlength : ∀ chunk ∈ breakVectorInto maxChunkSize content, chunk.length ≤ maxChunkSize :=
    fun chunk hmem => (length_of_mem_breakVectorInto (by decide) hmem).2
  obtain ⟨done, tls, hlast⟩ := chunks.handled hlength hid (.opened step) rest
  rw [List.nil_append, flatten_breakVectorInto] at done
  refine ⟨fd, hfree, done, tls, ?_⟩
  rw [sends_append, List.getLast?_append, hlast, Option.some_or]

end Handlers

/-! ### Runs of uploads -/

/-- The upload of one file, with what the handlers did. -/
structure UploadLabel where
  junk : Nat → Buffer
  name : Str
  content : List UInt8
  events : List ServerEvent

/-- Uploads one after the other on one logged-in connection, as in `upload` with
several files. -/
def uploadSystem (users : DatabaseHandler) (locate : Str → Node) (c : ConnId) :
    System (Storage Node) UploadLabel where
  init := fun s => s.session.id ≠ []
  step := fun s l t => TransferName s.session l.name ∧ HandledAll users locate c s
    ((createFileTransferPackets l.junk l.name l.content maxChunkSize).map Buffer.frame) l.events t

/-- The target is not there yet. -/
def TargetIsNew (locate : Str → Node) (m : Move (Storage Node) UploadLabel) : Prop :=
  m.pre.files.content (locate (m.pre.session.path m.label.name)) = none

/-- The target has the uploaded content, one descriptor was opened, nothing else
changed, and the last answer says that the transfer is ok. -/
def Faithful (locate : Str → Node) (m : Move (Storage Node) UploadLabel) : Prop :=
  m.post.files.content (locate (m.pre.session.path m.label.name)) = some m.label.content ∧
    (∃ fd, m.pre.files.descriptor fd = none ∧
      OnlyTouches (locate (m.pre.session.path m.label.name)) fd m.pre.files m.post.files) ∧
    ∃ frame, (sends m.label.events).getLast? = some frame ∧
      frame[1]? = some PacketType.respFileTransferOk.toByte

section Runs

variable {users : DatabaseHandler} {locate : Str → Node} {c : ConnId} {s t : Storage Node}
  {l : UploadLabel}

/-- The start packet as data. -/
theorem carriesChunk_fileTransferStart (junk : Buffer) (name : Str) :
    CarriesChunk (fileTransferStart junk name) .reqFileTransferStart
      ((fileTransferStart junk name).read 4 272) where
  command := Buffer.command_setHeader ..
  totalSize := by
    simp [fileTransferStart, sizeofPacketTransferFileStart, sizeofPacketHeader]
  data := by simp [sizeofPacketHeader]

theorem length_startData (junk : Buffer) (name : Str) :
    ((fileTransferStart junk name).read 4 272).length ≤ maxChunkSize := by
  simp [maxChunkSize, uint16Max, sizeofPacketHeader]

/-- The only packet of an empty file is written to the descriptor of an earlier upload. -/
theorem upload_empty (hempty : l.content = []) (hid : s.session.id ≠ [])
    (step : (uploadSystem users locate c).step s l t) :
    ∃ chunk count, Step s.files (.write s.session.fd chunk count) t.files ∧
      t.session = s.session := by
  obtain ⟨hname, handled⟩ := step
  rw [hempty, createFileTransferPackets_nil] at handled
  generalize l.events = events at handled
  cases handled with
  | cons first rest =>
  cases rest with
  | nil =>
  obtain ⟨tls, files, count, wrote, rfl, -⟩ :=
    first.writes (carriesChunk_fileTransferStart _ _).endTransfer .last (length_startData _ _) hid
  exact ⟨_, count, wrote, rfl⟩

/-- A new target becomes what was uploaded exactly when that is not empty. -/
theorem faithful_iff (hid : s.session.id ≠ []) (step : (uploadSystem users locate c).step s l t)
    (hnew : TargetIsNew locate ⟨s, l, t⟩) : Faithful locate ⟨s, l, t⟩ ↔ l.content ≠ [] := by
  have hnew : s.files.content (locate (s.session.path l.name)) = none := hnew
  constructor
  · rintro ⟨hcontent, -, -⟩ hempty
    obtain ⟨chunk, count, wrote, -⟩ := upload_empty hempty hid step
    have hmissing := wrote.write_missing hnew
    have hcontent : t.files.content (locate (s.session.path l.name)) = some l.content := hcontent
    rw [hmissing] at hcontent
    cases hcontent
  · intro hcontent
    obtain ⟨hname, handled⟩ := step
    obtain ⟨fd, hfree, done, tls, hlast⟩ := handled.uploaded hname hid hcontent
    refine ⟨?_, ⟨fd, hfree, done.touches⟩, _, hlast, sampleFrame_command ..⟩
    simpa [hnew] using done.content

/-- An upload keeps the login. -/
theorem upload_keeps_login (hid : s.session.id ≠ [])
    (step : (uploadSystem users locate c).step s l t) : t.session.id ≠ [] := by
  by_cases hempty : l.content = []
  · obtain ⟨chunk, count, wrote, hsession⟩ := upload_empty hempty hid step
    rw [hsession]
    exact hid
  · obtain ⟨hname, handled⟩ := step
    obtain ⟨fd, hfree, done, -⟩ := handled.uploaded hname hid hempty
    rw [done.session]
    exact hid

end Runs

/-- In every run of uploads whose file operations succeed, the new targets are left with exactly
what was uploaded, and nothing else is changed, exactly when none of their files is empty. The
connection is logged in. -/
theorem uploads_faithful_iff {users : DatabaseHandler} {locate : Str → Node} {c : ConnId}
    {start s : Storage Node} {moves : List (Move (Storage Node) UploadLabel)}
    (login : start.session.id ≠ []) (run : Run (uploadSystem users locate c) start moves s) :
    (∀ m ∈ moves, TargetIsNew locate m → Faithful locate m) ↔
      ∀ m ∈ moves, TargetIsNew locate m → m.label.content ≠ [] := by
  apply run.moves_iff (I := fun s => s.session.id ≠ []) _ _ login
  · rintro ⟨s, l, t⟩ hid step
    exact forall_congr' fun hnew => faithful_iff hid step hnew
  · rintro ⟨s, l, t⟩ hid step -
    exact upload_keeps_login hid step

/-- An empty file is uploaded: 272 bytes go to descriptor 0, and no file is made. -/
theorem empty_upload_makes_no_file :
    ∃ moves s, Run (uploadSystem exampleUsers id 0) exampleStorage moves s ∧
      ∃ m ∈ moves, TargetIsNew id m ∧ ¬ Faithful id m := by
  have wrote : Step exampleStorage.files
      (.write exampleStorage.session.fd ((fileTransferStart Buffer.zero (ascii "a")).read 4 272) _)
      exampleStorage.files := .writeOther rfl
  obtain ⟨events, handled⟩ : ∃ events, Handled exampleUsers id 0 exampleStorage _ events _ :=
    exists_handled_write (carriesChunk_fileTransferStart _ _).endTransfer .last
      (length_startData _ _) (by decide) wrote
  let l : UploadLabel := ⟨fun _ => Buffer.zero, ascii "a", [], events ++ []⟩
  have step : (uploadSystem exampleUsers id 0).step exampleStorage l exampleStorage := by
    refine ⟨transferName_example, ?_⟩
    rw [createFileTransferPackets_nil]
    exact .cons handled (.nil _)
  refine ⟨_, _, .one step, _, List.mem_singleton.mpr rfl, rfl, fun faithful => ?_⟩
  exact (faithful_iff (by decide) step rfl).mp faithful rfl

/-- A file of one byte is uploaded. -/
theorem uploads_faithful_byte :
    ∃ moves s, Run (uploadSystem exampleUsers id 0) exampleStorage moves s ∧ moves.length = 1 ∧
      ∀ m ∈ moves, m.label.content = [7] ∧ (TargetIsNew id m → Faithful id m) := by
  have hfree : exampleStorage.files.descriptor 6 = none := rfl
  obtain ⟨events, t, handled⟩ : ∃ events t, HandledAll exampleUsers id 0 exampleStorage
      ((createFileTransferPackets (fun _ => Buffer.zero) (ascii "a") [7] maxChunkSize).map
        Buffer.frame) events t :=
    exists_uploaded _ transferName_example (by decide) (by simp) (by decide) hfree
  let l : UploadLabel := ⟨fun _ => Buffer.zero, ascii "a", [7], events⟩
  have step : (uploadSystem exampleUsers id 0).step exampleStorage l t :=
    ⟨transferName_example, handled⟩
  have faithful := (uploads_faithful_iff (by decide) (.one step)).mpr (by simp [l])
  exact ⟨_, _, .one step, rfl, by simpa [l] using faithful⟩

end ConcurrentTcp
