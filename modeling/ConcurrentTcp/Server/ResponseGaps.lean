import ConcurrentTcp.Base.TwoRuns
import ConcurrentTcp.Server.ResponseBuffer

/-!
Responses up to the bytes that their builders leave.

A worker builds all its responses in one buffer. `PacketType.leaves` says for each type of
response which bytes its builder does not write, so that they are as an earlier request left
them. `dispatch_simulates`: whatever is in the buffer, a request makes the same calls, is
answered the same but for these bytes, and ends in the same session and global state.
-/

namespace ConcurrentTcp

open Interaction

/-! ### Bytes that are left -/

/-- Byte `i` of a response of this type is not written, with these bytes before it: padding, the
end of a settings response, which is sent with the size of a file list, what is behind the NUL of
a file name, and the slots behind the last file of a list. The version in byte 0, which is not
written either, is left out, as it stays zero. -/
def PacketType.leaves (ty : PacketType) (bytes : Nat → UInt8) (i : Nat) : Prop :=
  match ty with
  | .respServerStatusResponse => 4 ≤ i ∧ i < 8 ∨ 25 ≤ i ∧ i < 32
  | .respConnectionsInfo => 4 ≤ i ∧ i < 8
  | .respCurrentUser => i = 259
  | .respSettings | .respLoggedIn => 5 ≤ i
  | .respFileOpened => 4 ≤ i ∧ i < 8 ∨ ∃ j, 16 ≤ j ∧ j < i ∧ bytes j = 0
  | .respFileList => 5 + maxFilenameLen * (bytes 4).toNat ≤ i
  | _ => False

/-- The same response but for bytes that its builder leaves. -/
structure SameResponse (frame frame' : List UInt8) : Prop where
  length : frame.length = frame'.length
  written : ∀ i < frame.length, frame.getD i 0 = frame'.getD i 0 ∨
    ∃ ty : PacketType, frame.getD 1 0 = ty.toByte ∧ ty.leaves (frame.getD · 0) i

/-- The same call with the same answer, or two responses that are the same. -/
def SameCall (e e' : ServerEvent) : Prop :=
  e = e' ∨ ∃ frame frame', e = ⟨.send frame, ()⟩ ∧ e' = ⟨.send frame', ()⟩ ∧
    SameResponse frame frame'

/-- The same session and global state. -/
def SameEnd (s t : HandlerState) : Prop := t.session = s.session ∧ t.g = s.g

instance : Std.Refl SameCall := ⟨fun _ => .inl rfl⟩

/-- The second request does what the first does, and is answered the same. -/
abbrev AnswersAlike (p p' : ServerProg HandlerState) : Prop := Simulates SameCall SameEnd p p'

theorem SameResponse.of_eq {frame frame' : List UInt8} (h : frame = frame') :
    SameResponse frame frame' := by
  subst h
  exact ⟨rfl, fun _ _ => .inl rfl⟩

theorem PacketType.leaves_congr {ty : PacketType} {bytes bytes' : Nat → UInt8} {i : Nat}
    (same : ∀ j < i, bytes j = bytes' j) (h : ty.leaves bytes i) : ty.leaves bytes' i := by
  cases ty with
  | respFileOpened =>
      rcases h with h | ⟨j, hj, hlt, hzero⟩
      · exact .inl h
      · exact .inr ⟨j, hj, hlt, same j hlt ▸ hzero⟩
  | respFileList =>
      have h : 5 + maxFilenameLen * (bytes 4).toNat ≤ i := h
      rw [same 4 (by omega)] at h
      exact h
  | _ => exact h

section Frames

variable {p q : Buffer} {i n : Nat}

theorem Buffer.getD_read (h : i < n) : (p.read 0 n).getD i 0 = p i := by
  rw [List.getD_eq_getElem?_getD, Buffer.getElem?_read _ _ h, Nat.zero_add]
  rfl

/-- Two buffers with the same response. -/
theorem sameResponse_read (ty : PacketType) (command : p.command = ty.toByte) (hn : 1 < n)
    (h : ∀ i < n, ¬ ty.leaves p i → p i = q i) : SameResponse (p.read 0 n) (q.read 0 n) where
  length := by simp
  written i hi := by
    rw [Buffer.length_read] at hi
    rw [Buffer.getD_read hi, Buffer.getD_read hi, Buffer.getD_read hn]
    by_cases hleft : ty.leaves p i
    · refine .inr ⟨ty, command, PacketType.leaves_congr (fun j hj => ?_) hleft⟩
      exact (Buffer.getD_read (Nat.lt_trans hj hi)).symm
    · exact .inl (h i hi hleft)

/-- What is written is the same. -/
theorem Buffer.write_eq_of {off : Nat} {bytes : List UInt8}
    (h : ¬ (off ≤ i ∧ i < off + bytes.length) → p i = q i) :
    p.write off bytes i = q.write off bytes i :=
  Buffer.write_congr ((em _).symm.imp_left h)

theorem Buffer.setHeader_eq_of {ty : PacketType} {size : Nat}
    (h : ¬ (1 ≤ i ∧ i < 4) → p i = q i) : p.setHeader ty size i = q.setHeader ty size i :=
  Buffer.setHeader_congr ((em _).symm.imp_left h)

end Frames

/-! ### Builders -/

section Builders

variable {tls tls' : Buffer} {s t : HandlerState}

theorem sameResponse_currentUser (h : tls 0 = tls' 0) (id : Str) :
    SameResponse ((createCurrentUserPacket id tls).read 0 sizeofPacketCurrentUser)
      ((createCurrentUserPacket id tls').read 0 sizeofPacketCurrentUser) := by
  have command : (createCurrentUserPacket id tls).command = PacketType.respCurrentUser.toByte := by
    rw [createCurrentUserPacket, Buffer.command_write _ (by decide), Buffer.command_setHeader]
  refine sameResponse_read .respCurrentUser command (by decide) fun i hi hwritten => ?_
  refine Buffer.write_eq_of fun hid => Buffer.setHeader_eq_of fun hheader => ?_
  have hgap : i ≠ 259 := hwritten
  rw [length_strncpy] at hid
  rw [sizeofPacketCurrentUser] at hi
  obtain rfl : i = 0 := by omega
  exact h

theorem sameResponse_settings (h : tls 0 = tls' 0) (g : GlobalState) :
    SameResponse ((createSettingsRespPacket g tls).read 0 sizeofPacketFileList)
      ((createSettingsRespPacket g tls').read 0 sizeofPacketFileList) := by
  refine sameResponse_read .respSettings (Buffer.command_setHeader ..) (by decide)
    fun i hi hwritten => ?_
  refine Buffer.setHeader_eq_of fun hheader => Buffer.write_eq_of fun hlevel => ?_
  have hgap : ¬ 5 ≤ i := hwritten
  rw [List.length_singleton] at hlevel
  obtain rfl : i = 0 := by omega
  exact h

theorem sameResponse_loggedIn (h : tls 0 = tls' 0) (isAdmin : Bool) :
    SameResponse ((createLoggedInPacket isAdmin tls).read 0 sizeofLoggedInPacket)
      ((createLoggedInPacket isAdmin tls').read 0 sizeofLoggedInPacket) := by
  have command : (createLoggedInPacket isAdmin tls).command = PacketType.respLoggedIn.toByte := by
    rw [createLoggedInPacket, Buffer.command_write _ (by decide), Buffer.command_setHeader]
  refine sameResponse_read .respLoggedIn command (by decide) fun i hi hwritten => ?_
  refine Buffer.write_eq_of fun hadmin => Buffer.setHeader_eq_of fun hheader => ?_
  have hgap : ¬ 5 ≤ i := hwritten
  rw [List.length_singleton] at hadmin
  obtain rfl : i = 0 := by omega
  exact h

theorem sameResponse_currentDir (h : tls 0 = tls' 0) (cwd : Str) :
    SameResponse ((createCurrentDirPacket cwd tls).read 0 sizeofPacketCurrentDirectory)
      ((createCurrentDirPacket cwd tls').read 0 sizeofPacketCurrentDirectory) := by
  refine sameResponse_read .respCurrentDirectory (Buffer.command_setHeader ..) (by decide)
    fun i hi _ => ?_
  refine Buffer.setHeader_eq_of fun hheader => Buffer.write_eq_of fun hpath => ?_
  rw [length_strncpy] at hpath
  rw [sizeofPacketCurrentDirectory] at hi
  obtain rfl : i = 0 := by omega
  exact h

theorem sameResponse_chunkInfo (h : tls 0 = tls' 0) (chunks : Nat) (name : Str) :
    SameResponse ((createChunkInfoPacket tls chunks name).read 0 sizeofPacketDownloadedFileInfo)
      ((createChunkInfoPacket tls' chunks name).read 0 sizeofPacketDownloadedFileInfo) := by
  have command : (createChunkInfoPacket tls chunks name).command =
      PacketType.respFileOpened.toByte := by
    rw [createChunkInfoPacket, Buffer.command_write _ (by decide),
      Buffer.command_write _ (by decide), Buffer.command_setHeader]
  refine sameResponse_read .respFileOpened command (by decide) fun i hi hwritten => ?_
  refine Buffer.write_eq_of fun hname => Buffer.write_eq_of fun hchunks =>
    Buffer.setHeader_eq_of fun hheader => ?_
  obtain ⟨hpadding, hbehind⟩ := not_or.mp hwritten
  rw [List.length_append, List.length_singleton] at hname
  rw [length_le64] at hchunks
  -- Behind the name's NUL nothing is written.
  have hshort : i < 16 + name.length + 1 := by
    by_contra hlong
    refine hbehind ⟨16 + name.length, by omega, by omega, ?_⟩
    simp [createChunkInfoPacket, Buffer.write]
  obtain rfl : i = 0 := by omega
  exact h

/-- The counts, in the buffer of `create_connections_info_packet`. -/
theorem simulates_connectionsInfo (h : tls 0 = tls' 0) :
    Simulates SameCall (fun p q => SameResponse (p.read 0 sizeofPacketConnectionsInfo)
        (q.read 0 sizeofPacketConnectionsInfo))
      (createConnectionsInfoPacket tls) (createConnectionsInfoPacket tls') := by
  refine .call fun sizes => .ret ?_
  obtain ⟨completed, active, pending⟩ := sizes
  refine sameResponse_read .respConnectionsInfo ?_ (by decide) fun i hi hwritten => ?_
  · rw [Buffer.command_write _ (by decide), Buffer.command_write _ (by decide),
      Buffer.command_write _ (by decide), Buffer.command_setHeader]
  refine Buffer.write_eq_of fun hpending => Buffer.write_eq_of fun hactive =>
    Buffer.write_eq_of fun hcompleted => Buffer.setHeader_eq_of fun hheader => ?_
  have hgap : ¬ (4 ≤ i ∧ i < 8) := hwritten
  rw [length_le64] at hpending hactive hcompleted
  rw [sizeofPacketConnectionsInfo] at hi
  obtain rfl : i = 0 := by omega
  exact h

theorem simulates_serverStatus (h : tls 0 = tls' 0) :
    Simulates SameCall (fun p q => SameResponse (p.read 0 sizeofServerStatusPacket)
        (q.read 0 sizeofServerStatusPacket))
      (createServerStatusPacket tls) (createServerStatusPacket tls') := by
  refine .call fun (cpuUsage : UInt8) => .call fun memory => .call fun uptimeSeconds => .ret ?_
  refine sameResponse_read .respServerStatusResponse ?_ (by decide) fun i hi hwritten => ?_
  · rw [Buffer.command_write _ (by decide), Buffer.command_write _ (by decide),
      Buffer.command_write _ (by decide), Buffer.command_write _ (by decide),
      Buffer.command_setHeader]
  refine Buffer.write_eq_of fun huptime => Buffer.write_eq_of fun hfree =>
    Buffer.write_eq_of fun htotal => Buffer.write_eq_of fun hcpu =>
      Buffer.setHeader_eq_of fun hheader => ?_
  have hgap : ¬ (4 ≤ i ∧ i < 8 ∨ 25 ≤ i ∧ i < 32) := hwritten
  rw [length_le64] at huptime hfree htotal
  rw [List.length_singleton] at hcpu
  rw [sizeofServerStatusPacket] at hi
  obtain rfl : i = 0 := by omega
  exact h

/-- The names fill the slots of a list from the front. -/
theorem writeFileNames_same {p q : Buffer} {count : Nat} (names : List Str)
    (hcount : count ≤ maxFiles)
    (same : ∀ i, i = 0 ∨ 5 ≤ i ∧ i < 5 + maxFilenameLen * count → p i = q i) :
    (writeFileNames p count names).2 = (writeFileNames q count names).2 ∧
      (writeFileNames p count names).2 ≤ maxFiles ∧
      ∀ i, i = 0 ∨ 5 ≤ i ∧ i < 5 + maxFilenameLen * (writeFileNames p count names).2 →
        (writeFileNames p count names).1 i = (writeFileNames q count names).1 i := by
  induction names generalizing p q count with
  | nil => exact ⟨rfl, hcount, same⟩
  | cons name rest ih =>
      unfold writeFileNames
      split
      · rename_i hroom
        split
        · exact ih hcount same
        · refine ih (by omega) fun i hi => ?_
          refine Buffer.write_eq_of fun _ => Buffer.write_eq_of fun hslot => same i ?_
          rw [length_strncpy] at hslot
          rw [Nat.mul_succ] at hi
          omega
      · exact ⟨rfl, hcount, same⟩

theorem simulates_fileList (h : tls 0 = tls' 0) (currentDir : Str) :
    Simulates SameCall (fun p q => SameResponse (p.read 0 sizeofPacketFileList)
        (q.read 0 sizeofPacketFileList))
      (createFileListPacket currentDir tls) (createFileListPacket currentDir tls') := by
  -- The header goes over a buffer with a count and as many names.
  have listed : ∀ {p q : Buffer} {count : Nat}, count ≤ maxFiles →
      (∀ i, i = 0 ∨ 5 ≤ i ∧ i < 5 + maxFilenameLen * count → p i = q i) →
      SameResponse
        (((p.write 4 [UInt8.ofNat count]).setHeader .respFileList sizeofPacketFileList).read 0
          sizeofPacketFileList)
        (((q.write 4 [UInt8.ofNat count]).setHeader .respFileList sizeofPacketFileList).read 0
          sizeofPacketFileList) := by
    intro p q count hcount same
    refine sameResponse_read .respFileList (Buffer.command_setHeader ..) (by decide)
      fun i hi hwritten => ?_
    have hbyte : ((p.write 4 [UInt8.ofNat count]).setHeader .respFileList
        sizeofPacketFileList) 4 = UInt8.ofNat count := by
      rw [Buffer.setHeader_of_le _ _ _ (Nat.le_refl 4)]
      simp [Buffer.write]
    have hslots : ¬ 5 + maxFilenameLen * count ≤ i := by
      have hsmall : count % 2 ^ 8 = count := Nat.mod_eq_of_lt (by unfold maxFiles at hcount; omega)
      have hwritten : ¬ 5 + maxFilenameLen * (UInt8.toNat _) ≤ i := hwritten
      rwa [hbyte, UInt8.toNat_ofNat', hsmall] at hwritten
    refine Buffer.setHeader_eq_of fun hheader => Buffer.write_eq_of fun hnumber => same i ?_
    rw [List.length_singleton] at hnumber
    omega
  have version : ∀ i, i = 0 ∨ 5 ≤ i ∧ i < 5 + maxFilenameLen * 0 → tls i = tls' i := by
    intro i hi
    obtain rfl : i = 0 := by omega
    exact h
  refine .seq (.call fun names => ?_) fun p q hpq => .ret hpq
  cases names with
  | none =>
      exact .ret (listed (Nat.zero_le _) version)
  | some names =>
      obtain ⟨hcount, hle, same⟩ := writeFileNames_same names (Nat.zero_le _) version
      refine .ret ?_
      rw [← hcount]
      exact listed hle same

end Builders

/-! ### Requests -/

section Requests

variable {users : DatabaseHandler} {fuel : Nat} {receiveBuffer : Buffer} {cb : ConnectionBuffer}
  {ty : PacketType} {session : Session} {g : GlobalState} {tls tls' : Buffer}

theorem simulates_respond {s t : HandlerState} {p q : Buffer} {n m : Nat} (same : SameEnd s t)
    (h : SameResponse (p.read 0 n) (q.read 0 m)) :
    AnswersAlike (s.respond p n) (t.respond q m) :=
  .calls fun _ => ⟨(), .inr ⟨_, _, rfl, rfl, h⟩, .ret same⟩

theorem simulates_plain {answer : PacketType} (h : tls 0 = tls' 0) :
    AnswersAlike (sendSampleResp ⟨session, g, tls⟩ answer)
      (sendSampleResp ⟨session, g, tls'⟩ answer) :=
  simulates_respond ⟨rfl, rfl⟩ (.of_eq (sampleFrame_congr h))

theorem simulates_transferPath (operation : Str → Str → ServerProg Bool) (h : tls 0 = tls' 0) :
    AnswersAlike (transferPath operation cb ⟨session, g, tls⟩)
      (transferPath operation cb ⟨session, g, tls'⟩) := by
  apply Simulates.bind; intro inPacket
  apply Simulates.bind; intro _
  apply Simulates.bind; intro userDir
  apply Simulates.bind; intro _
  apply Simulates.bind; intro currentDir
  apply Simulates.bind; intro _
  apply Simulates.bind; intro source
  apply Simulates.bind; intro _
  apply Simulates.bind; intro destination
  apply Simulates.bind; intro sourceInside
  apply Simulates.ite (simulates_plain h)
  apply Simulates.bind; intro destinationInside
  apply Simulates.ite (simulates_plain h)
  exact Simulates.bind fun done => simulates_plain h

/-- The download handler answers with what is in the buffer, whatever type it says. -/
theorem simulates_reqFileDownloadChunk (h : tls 0 = tls' 0) :
    AnswersAlike (reqFileDownloadChunk cb ⟨session, g, tls⟩)
      (reqFileDownloadChunk cb ⟨session, g, tls'⟩) := by
  unfold reqFileDownloadChunk createChunkPacket
  simp only [sys_bind]
  apply Simulates.call
  intro position
  simp only [Prog.bind]
  split
  · apply Simulates.call
    intro closed
    -- The error, and once more what is then in the buffer.
    have again : SameResponse
        ((tls.setHeader .respIoError sizeofSamplePacket).read 0
          (tls.setHeader .respIoError sizeofSamplePacket).totalSize)
        ((tls'.setHeader .respIoError sizeofSamplePacket).read 0
          (tls'.setHeader .respIoError sizeofSamplePacket).totalSize) := by
      apply SameResponse.of_eq
      rw [read_setHeader_totalSize, read_setHeader_totalSize]
      exact sampleFrame_congr h
    exact .calls fun _ => ⟨(), .inr ⟨_, _, rfl, rfl, .of_eq (sampleFrame_congr h)⟩,
      simulates_respond ⟨rfl, rfl⟩ again⟩
  · apply Simulates.call
    rintro (_ | bytes)
    · exact simulates_respond ⟨rfl, rfl⟩ (.of_eq (read_chunkResponse_congr h none))
    · exact simulates_respond ⟨rfl, rfl⟩ (.of_eq (read_chunkResponse_congr h (some bytes)))

theorem simulates_reqLogin (h : tls 0 = tls' 0) :
    AnswersAlike (reqLogin users cb ⟨session, g, tls⟩) (reqLogin users cb ⟨session, g, tls'⟩) := by
  apply Simulates.bind; intro p
  apply Simulates.ite
  · apply Simulates.bind; intro _
    apply Simulates.ite
    · apply Simulates.ite
      · exact simulates_plain h
      · exact simulates_respond ⟨rfl, rfl⟩ (sameResponse_loggedIn h _)
    · exact simulates_respond ⟨rfl, rfl⟩ (sameResponse_loggedIn h _)
  · exact simulates_plain h

theorem simulates_reqFileOpen (h : tls 0 = tls' 0) :
    AnswersAlike (reqFileOpen cb ⟨session, g, tls⟩) (reqFileOpen cb ⟨session, g, tls'⟩) := by
  apply Simulates.bind; intro name
  apply Simulates.ite (simulates_plain h)
  apply Simulates.bind; intro filePath
  apply Simulates.bind; intro file
  apply Simulates.ite (simulates_plain h)
  apply Simulates.bind; intro size
  cases size with
  | none => exact simulates_plain h
  | some fileSize => exact simulates_respond ⟨rfl, rfl⟩ (sameResponse_chunkInfo h _ _)

theorem handlers_simulate {handler : HandlerState → ServerProg HandlerState}
    (hhandler : handlers users fuel receiveBuffer cb ty = some handler) (h : tls 0 = tls' 0) :
    AnswersAlike (handler ⟨session, g, tls⟩) (handler ⟨session, g, tls'⟩) := by
  induction ty, handler, hhandler using handlers_cases with
  | reqServerStatus =>
      apply Simulates.ite (simulates_plain h)
      exact (simulates_serverStatus h).seq fun p q hpq => simulates_respond ⟨rfl, rfl⟩ hpq
  | reqConnectionsInfo =>
      apply Simulates.ite (simulates_plain h)
      exact (simulates_connectionsInfo h).seq fun p q hpq => simulates_respond ⟨rfl, rfl⟩ hpq
  | reqCrcVerify => exact Simulates.ret ⟨rfl, rfl⟩
  | reqLogout => exact simulates_plain h
  | reqCurrentDirectory => exact simulates_respond ⟨rfl, rfl⟩ (sameResponse_currentDir h _)
  | reqRemovePath =>
      apply Simulates.bind; intro name
      apply Simulates.ite (simulates_plain h)
      apply Simulates.bind; intro file
      apply Simulates.ite (simulates_plain h)
      exact Simulates.bind fun directory => simulates_plain h
  | reqMkdir =>
      apply Simulates.bind; intro name
      apply Simulates.ite (simulates_plain h)
      exact Simulates.bind fun made => simulates_plain h
  | reqChangeWorkingDirectory =>
      apply Simulates.bind; intro path
      apply Simulates.bind; intro newDir
      exact Simulates.ite (simulates_plain h) (simulates_plain h)
  | reqFileOpen => exact simulates_reqFileOpen h
  | reqFileDownloadChunk => exact simulates_reqFileDownloadChunk h
  | reqFileClose =>
      apply Simulates.bind; intro closed
      apply Simulates.ite
      · exact Simulates.bind fun _ => simulates_plain h
      · exact simulates_plain h
  | reqMoveFile => exact simulates_transferPath _ h
  | reqCopyFile => exact simulates_transferPath _ h
  | reqPing => exact simulates_plain h
  | reqGetCurrentUser => exact simulates_respond ⟨rfl, rfl⟩ (sameResponse_currentUser h _)
  | reqFileTransferStart =>
      apply Simulates.bind; intro name
      apply Simulates.ite (simulates_plain h)
      exact Simulates.bind fun file => simulates_plain h
  | reqFileTransferChunk => exact Simulates.bind fun _ => simulates_plain h
  | reqFileTransferEnd => exact Simulates.bind fun _ => simulates_plain h
  | reqGetSettings =>
      apply Simulates.ite (simulates_plain h)
      exact simulates_respond ⟨rfl, rfl⟩ (sameResponse_settings h g)
  | reqSetSetting => exact Simulates.ite (simulates_plain h) (simulates_plain h)
  | reqFileList =>
      exact (simulates_fileList h _).seq fun p q hpq => simulates_respond ⟨rfl, rfl⟩ hpq
  | reqLogin => exact simulates_reqLogin h
  | reqCompress =>
      apply Simulates.bind; intro archiveName
      apply Simulates.bind; intro listed
      cases listed with
      | none => exact simulates_plain h
      | some files => exact Simulates.bind fun success => simulates_plain h
  | reqClean =>
      apply Simulates.ite (simulates_plain h)
      apply Simulates.bind; intro _
      apply Simulates.bind; intro entries
      exact Simulates.bind fun _ => simulates_plain h

/-- Whatever earlier requests left in the two buffers, the request makes the same calls, with the
same response but for bytes that are left, and ends in the same session and global state. -/
theorem dispatch_simulates (h : tls 0 = tls' 0) :
    AnswersAlike (dispatch users fuel ty receiveBuffer cb ⟨session, g, tls⟩)
      (dispatch users fuel ty receiveBuffer cb ⟨session, g, tls'⟩) := by
  unfold dispatch
  apply Simulates.ite (simulates_plain h)
  cases hhandler : handlers users fuel receiveBuffer cb ty with
  | none => exact Simulates.fail _
  | some handler => exact handlers_simulate hhandler h

end Requests

end ConcurrentTcp
