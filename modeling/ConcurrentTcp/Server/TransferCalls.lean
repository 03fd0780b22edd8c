import ConcurrentTcp.Base.Traces
import ConcurrentTcp.Server.Requests

/-!
The calls of the transfer handlers.

Uploads and downloads make few calls in a fixed order. Each lemma writes out all
executions of one handler.
-/

namespace ConcurrentTcp

open Interaction

/-- What `send_sample_resp` sends. -/
def sampleFrame (tls : Buffer) (answer : PacketType) : List UInt8 :=
  (tls.setHeader answer sizeofSamplePacket).read 0 sizeofSamplePacket

theorem sampleFrame_command (tls : Buffer) (answer : PacketType) :
    (sampleFrame tls answer)[1]? = some answer.toByte := by
  simp [sampleFrame, sizeofSamplePacket, Buffer.read_setHeader]

section Transfers

variable {cb : ConnectionBuffer} {s : HandlerState} {name : Str} {events : List ServerEvent}
  {out : Except Fault HandlerState}

theorem exec_sendSampleResp_iff {answer : PacketType} :
    Exec (sendSampleResp s answer) events out ↔
      events = [⟨.send (sampleFrame s.tls answer), ()⟩] ∧
        out = .ok { s with tls := s.tls.setHeader answer sizeofSamplePacket } :=
  exec_respond_iff

theorem exec_sys_iff {α : Type} {op : SysCall} {f : op.Answer → ServerProg α}
    {events : List ServerEvent} {out : Except Fault α} :
    Exec (sys op >>= f) events out ↔
      ∃ ans rest, events = ⟨op, ans⟩ :: rest ∧ Exec (f ans) rest out :=
  Exec.call_iff

theorem traces_sys {α : Type} {op : SysCall} {f : op.Answer → ServerProg α}
    {Q : List ServerEvent → Except Fault α → Prop}
    (h : ∀ ans, Traces (fun events out => Q (⟨op, ans⟩ :: events) out) (f ans)) :
    Traces Q (sys op >>= f) :=
  Traces.call h

/-! ### Upload -/

theorem exec_reqFileTransferStart_iff
    (hname : PacketTransferFileStart.decodeFileName cb.buffer = some name)
    (hvalid : isValidFilename name = true) :
    Exec (reqFileTransferStart cb s) events out ↔
      ∃ file : Int,
        events = [⟨.openFile (snprintfPath s.session name) true, file⟩,
          ⟨.send (sampleFrame s.tls .respContinue), ()⟩] ∧
        out = .ok { s with
          session := { s.session with fd := file }
          tls := s.tls.setHeader .respContinue sizeofSamplePacket } := by
  simp only [reqFileTransferStart, hname, hvalid, orUndefined, Prog.ret_bind, Bool.not_true,
    Bool.false_eq_true, if_false]
  apply exec_sys_iff.trans
  constructor
  · rintro ⟨file, rest, rfl, sent⟩
    obtain ⟨rfl, rfl⟩ := exec_sendSampleResp_iff.mp sent
    exact ⟨file, rfl, rfl⟩
  · rintro ⟨file, rfl, rfl⟩
    exact ⟨file, _, rfl, exec_sendSampleResp_iff.mpr ⟨rfl, rfl⟩⟩

theorem exec_writeFileData_iff {answer : PacketType} :
    Exec (writeFileData answer cb s) events out ↔
      ∃ written : Int,
        events = [⟨.write s.session.fd (fileData cb) (payloadLength cb), written⟩,
          ⟨.send (sampleFrame s.tls answer), ()⟩] ∧
        out = .ok { s with tls := s.tls.setHeader answer sizeofSamplePacket } := by
  apply exec_sys_iff.trans
  constructor
  · rintro ⟨written, rest, rfl, sent⟩
    obtain ⟨rfl, rfl⟩ := exec_sendSampleResp_iff.mp sent
    exact ⟨written, rfl, rfl⟩
  · rintro ⟨written, rfl, rfl⟩
    exact ⟨written, _, rfl, exec_sendSampleResp_iff.mpr ⟨rfl, rfl⟩⟩

/-! ### Download -/

/-- The executions of the file-open handler once its path is made. -/
inductive FileOpenExec (name filePath : Str) (s : HandlerState) :
    List ServerEvent → HandlerState → Prop where
  | notOpened (file : Int) : file ≤ 0 →
      FileOpenExec name filePath s
        [⟨.openFile filePath false, file⟩, ⟨.send (sampleFrame s.tls .respIoError), ()⟩]
        { s with tls := s.tls.setHeader .respIoError sizeofSamplePacket }
  | noSize (file : Int) : ¬ file ≤ 0 →
      FileOpenExec name filePath s
        [⟨.openFile filePath false, file⟩, ⟨.fstat file, none⟩,
          ⟨.send (sampleFrame s.tls .respIoError), ()⟩]
        { s with tls := s.tls.setHeader .respIoError sizeofSamplePacket }
  | opened (file : Int) (fileSize : Nat) (p : Buffer) : ¬ file ≤ 0 →
      p = createChunkInfoPacket s.tls
        (fileSize / maxChunkSize + (if fileSize % maxChunkSize ≠ 0 then 1 else 0)) name →
      FileOpenExec name filePath s
        [⟨.openFile filePath false, file⟩, ⟨.fstat file, some fileSize⟩,
          ⟨.send (p.read 0 sizeofPacketDownloadedFileInfo), ()⟩]
        { s with session := { s.session with downloadFd := file }, tls := p }

theorem exec_reqFileOpen_iff {filePath : Str}
    (hname : PacketDownloadFile.decodePath cb.buffer = some name)
    (hvalid : isValidFilename name = true) (hpath : sprintfPath s.session name = some filePath) :
    Exec (reqFileOpen cb s) events out ↔
      ∃ t, out = .ok t ∧ FileOpenExec name filePath s events t := by
  simp only [reqFileOpen, hname, hvalid, hpath, orUndefined, Prog.ret_bind, Bool.not_true,
    Bool.false_eq_true, if_false]
  apply exec_sys_iff.trans
  constructor
  · rintro ⟨(file : Int), rest, rfl, run⟩
    by_cases hfile : file ≤ 0
    · rw [if_pos hfile] at run
      obtain ⟨rfl, rfl⟩ := exec_sendSampleResp_iff.mp run
      exact ⟨_, rfl, .notOpened file hfile⟩
    · rw [if_neg hfile] at run
      obtain ⟨_ | fileSize, rest, rfl, sent⟩ := exec_sys_iff.mp run
      · obtain ⟨rfl, rfl⟩ := exec_sendSampleResp_iff.mp sent
        exact ⟨_, rfl, .noSize file hfile⟩
      · obtain ⟨rfl, rfl⟩ := exec_respond_iff.mp sent
        exact ⟨_, rfl, .opened file fileSize _ hfile rfl⟩
  · rintro ⟨t, rfl, run⟩
    cases run with
    | notOpened file hfile =>
        refine ⟨file, _, rfl, ?_⟩
        rw [if_pos hfile]
        exact exec_sendSampleResp_iff.mpr ⟨rfl, rfl⟩
    | noSize file hfile =>
        refine ⟨file, _, rfl, ?_⟩
        rw [if_neg hfile]
        exact exec_sys_iff.mpr ⟨none, _, rfl, exec_sendSampleResp_iff.mpr ⟨rfl, rfl⟩⟩
    | opened file fileSize p hfile hp =>
        refine ⟨file, _, rfl, ?_⟩
        rw [if_neg hfile]
        subst hp
        exact exec_sys_iff.mpr ⟨some fileSize, _, rfl, exec_respond_iff.mpr ⟨rfl, rfl⟩⟩

/-- The offset of the chunk the packet asks for. -/
def chunkOffset (cb : ConnectionBuffer) : Int :=
  toOffT (PacketDownloadChunk.decodeChunkIndex cb.buffer * maxChunkSize)

/-- The response buffer after `read`. -/
def chunkResponse (tls : Buffer) : Option (List UInt8) → Buffer
  | some bytes => (tls.write 4 bytes).setHeader .respFileChunk (bytes.length + sizeofPacketHeader)
  | none => tls.setHeader .respFileChunk ((2 ^ 64 - 1 + sizeofPacketHeader) % 2 ^ 64)

theorem totalSize_chunkResponse (tls : Buffer) {bytes : List UInt8}
    (h : bytes.length ≤ maxChunkSize) :
    (chunkResponse tls (some bytes)).totalSize = sizeofPacketHeader + bytes.length := by
  simp only [chunkResponse, Buffer.totalSize_setHeader, sizeofPacketHeader]
  simp only [maxChunkSize, uint16Max, sizeofPacketHeader] at h
  omega

/-- The executions of the download-chunk handler. -/
inductive DownloadChunkExec (cb : ConnectionBuffer) (s : HandlerState) :
    List ServerEvent → HandlerState → Prop where
  | notThere (position closed : Int) : position ≠ chunkOffset cb →
      DownloadChunkExec cb s
        [⟨.lseek s.session.downloadFd (chunkOffset cb), position⟩,
          ⟨.close s.session.downloadFd, closed⟩, ⟨.send (sampleFrame s.tls .respIoError), ()⟩,
          ⟨.send (sampleFrame s.tls .respIoError), ()⟩]
        { s with
          session := { s.session with downloadFd := 0 }
          tls := s.tls.setHeader .respIoError sizeofSamplePacket }
  | answered (data : Option (List UInt8)) :
      DownloadChunkExec cb s
        [⟨.lseek s.session.downloadFd (chunkOffset cb), chunkOffset cb⟩,
          ⟨.read s.session.downloadFd maxChunkSize, data⟩,
          ⟨.send ((chunkResponse s.tls data).read 0 (chunkResponse s.tls data).totalSize), ()⟩]
        { s with tls := chunkResponse s.tls data }

/-- The error answer leaves a header that says its own size. -/
theorem read_setHeader_totalSize (tls : Buffer) (answer : PacketType) :
    (tls.setHeader answer sizeofSamplePacket).read 0
      (tls.setHeader answer sizeofSamplePacket).totalSize = sampleFrame tls answer := by
  simp [sampleFrame, sizeofSamplePacket]

theorem exec_createChunkPacket_iff {tls : Buffer} {chunkIndex : Nat} {fd offset : Int}
    {result : Except Fault (Int × Buffer)} (hoffset : toOffT (chunkIndex * maxChunkSize) = offset) :
    Exec (createChunkPacket tls chunkIndex fd) events result ↔
      (∃ position closed : Int, position ≠ offset ∧
        events = [⟨.lseek fd offset, position⟩, ⟨.close fd, closed⟩] ∧ result = .ok (-1, tls)) ∨
      ∃ data, events = [⟨.lseek fd offset, offset⟩, ⟨.read fd maxChunkSize, data⟩] ∧
        result = .ok (0, chunkResponse tls data) := by
  unfold createChunkPacket
  rw [hoffset]
  apply exec_sys_iff.trans
  constructor
  · rintro ⟨(position : Int), rest, rfl, run⟩
    by_cases hposition : position ≠ offset
    · rw [if_pos hposition] at run
      obtain ⟨closed, rest, rfl, tail⟩ := exec_sys_iff.mp run
      obtain ⟨rfl, rfl⟩ := Exec.ret_iff.mp tail
      exact .inl ⟨position, closed, hposition, rfl, rfl⟩
    · rw [if_neg hposition] at run
      obtain rfl := not_ne_iff.mp hposition
      obtain ⟨_ | bytes, rest, rfl, tail⟩ := exec_sys_iff.mp run
      · obtain ⟨rfl, rfl⟩ := Exec.ret_iff.mp tail
        exact .inr ⟨none, rfl, rfl⟩
      · obtain ⟨rfl, rfl⟩ := Exec.ret_iff.mp tail
        exact .inr ⟨some bytes, rfl, rfl⟩
  · rintro (⟨position, closed, hposition, rfl, rfl⟩ | ⟨data, rfl, rfl⟩)
    · refine ⟨position, _, rfl, ?_⟩
      rw [if_pos hposition]
      exact exec_sys_iff.mpr ⟨closed, _, rfl, .ret _⟩
    · refine ⟨offset, _, rfl, ?_⟩
      rw [if_neg (not_ne_iff.mpr rfl)]
      cases data with
      | none => exact exec_sys_iff.mpr ⟨none, _, rfl, .ret _⟩
      | some bytes => exact exec_sys_iff.mpr ⟨some bytes, _, rfl, .ret _⟩

theorem exec_reqFileDownloadChunk_iff :
    Exec (reqFileDownloadChunk cb s) events out ↔
      ∃ t, out = .ok t ∧ DownloadChunkExec cb s events t := by
  constructor
  · intro run
    rcases run.bind_cases with ⟨⟨output, p⟩, first, second, made, sent, rfl⟩ | ⟨e, made, rfl⟩
    · rcases (exec_createChunkPacket_iff rfl).mp made with
        ⟨position, closed, hposition, rfl, hend⟩ | ⟨data, rfl, hend⟩
      · cases hend
        rcases sent.bind_cases with ⟨t, first, second, answered, again, rfl⟩ | ⟨e, answered, rfl⟩
        · obtain ⟨rfl, ht⟩ := exec_sendSampleResp_iff.mp answered
          cases ht
          obtain ⟨rfl, rfl⟩ := exec_respond_iff.mp again
          refine ⟨_, rfl, ?_⟩
          rw [read_setHeader_totalSize]
          exact .notThere position closed hposition
        · obtain ⟨-, hfault⟩ := exec_sendSampleResp_iff.mp answered
          cases hfault
      · cases hend
        obtain ⟨rfl, rfl⟩ := exec_respond_iff.mp sent
        exact ⟨_, rfl, .answered data⟩
    · rcases (exec_createChunkPacket_iff rfl).mp made with ⟨_, _, _, _, hend⟩ | ⟨_, _, hend⟩
      · cases hend
      · cases hend
  · rintro ⟨t, rfl, run⟩
    cases run with
    | notThere position closed hposition =>
        have made : Exec (createChunkPacket s.tls (PacketDownloadChunk.decodeChunkIndex cb.buffer)
            s.session.downloadFd) _ (.ok (-1, s.tls)) :=
          (exec_createChunkPacket_iff rfl).mpr (.inl ⟨position, closed, hposition, rfl, rfl⟩)
        refine made.bind ?_
        rw [← read_setHeader_totalSize]
        exact (exec_sendSampleResp_iff.mpr ⟨rfl, rfl⟩).bind (exec_respond_iff.mpr ⟨rfl, rfl⟩)
    | answered data =>
        have made : Exec (createChunkPacket s.tls (PacketDownloadChunk.decodeChunkIndex cb.buffer)
            s.session.downloadFd) _ (.ok (0, chunkResponse s.tls data)) :=
          (exec_createChunkPacket_iff rfl).mpr (.inr ⟨data, rfl, rfl⟩)
        exact made.bind (exec_respond_iff.mpr ⟨rfl, rfl⟩)

/-- A close that fails is tried once more. -/
theorem exec_reqFileClose_cases (run : Exec (reqFileClose s) events out) :
    (∃ closed : Int, 0 ≤ closed ∧
      events = [⟨.close s.session.downloadFd, closed⟩, ⟨.send (sampleFrame s.tls .respOk), ()⟩] ∧
        out = .ok { s with tls := s.tls.setHeader .respOk sizeofSamplePacket }) ∨
    ∃ closed again : Int, closed < 0 ∧
      events = [⟨.close s.session.downloadFd, closed⟩, ⟨.close s.session.downloadFd, again⟩,
        ⟨.send (sampleFrame s.tls .respIoError), ()⟩] ∧
        out = .ok { s with
          session := { s.session with downloadFd := 0 }
          tls := s.tls.setHeader .respIoError sizeofSamplePacket } := by
  obtain ⟨(closed : Int), rest, rfl, next⟩ := exec_sys_iff.mp run
  by_cases hclosed : closed < 0
  · rw [if_pos hclosed] at next
    obtain ⟨again, rest, rfl, sent⟩ := exec_sys_iff.mp next
    obtain ⟨rfl, rfl⟩ := exec_sendSampleResp_iff.mp sent
    exact .inr ⟨closed, again, hclosed, rfl, rfl⟩
  · rw [if_neg hclosed] at next
    obtain ⟨rfl, rfl⟩ := exec_sendSampleResp_iff.mp next
    exact .inl ⟨closed, by omega, rfl, rfl⟩

end Transfers

end ConcurrentTcp
