import ConcurrentTcp.Server.ResponseBuffer

/-!
Requests that can be answered.

`dispatch_headed` says which answers have a header: all but that to a chunk request whose `read`
failed, which is cut to three bytes. `Answerable` is what a request needs so that its handler can
answer it, and `exists_answer` is a run in which it does.
-/

namespace ConcurrentTcp

open Interaction

/-! ### Answers with a header -/

/-- `read` returned -1. -/
def readFailed : ServerEvent → Bool
  | ⟨.read _ _, (data : Option (List UInt8))⟩ => data.isNone
  | _ => false

/-- The answer with a chunk that could not be read, which does not have all of its header. -/
def ChunkCut (ty : PacketType) (events : List ServerEvent) : Prop :=
  ty = .reqFileDownloadChunk ∧ (∃ e ∈ events, readFailed e = true) ∧
    (sends events).flatten.length = 3

section Headed

variable {users : DatabaseHandler} {fuel : Nat} {ty : PacketType} {receiveBuffer : Buffer}
  {cb : ConnectionBuffer} {s t : HandlerState} {events : List ServerEvent}

theorem headed_reqGetSettings (asks : ¬ AsksForSettings .reqGetSettings s.session)
    (hid : s.session.id ≠ []) (run : Exec (reqGetSettings s) events (.ok t)) :
    HeadedFrame (sends events) := by
  have hadmin : s.session.isAdmin = false := by
    by_contra h
    exact asks ⟨rfl, hid, by simpa using h⟩
  have refuses : reqGetSettings s = sendRespNotAdmin s := by simp [reqGetSettings, hadmin]
  rw [refuses] at run
  obtain ⟨rfl, -⟩ := exec_sendSampleResp_iff.mp run
  exact headedFrame_sampleFrame _ _

theorem headed_reqFileDownloadChunk (bounded : ∀ e ∈ events, ReadBounded e)
    (found : ¬ ∃ e ∈ events, seekFailed e = true)
    (run : Exec (reqFileDownloadChunk cb s) events (.ok t)) :
    HeadedFrame (sends events) ∨ ChunkCut .reqFileDownloadChunk events := by
  obtain ⟨u, -, calls⟩ := exec_reqFileDownloadChunk_iff.mp run
  cases calls with
  | notThere position closed hposition =>
      exact absurd ⟨_, List.mem_cons_self, by simpa [seekFailed] using hposition⟩ found
  | answered data =>
      cases data with
      | none =>
          refine .inr ⟨rfl, ⟨_, List.mem_cons_of_mem _ List.mem_cons_self, rfl⟩, ?_⟩
          show [(chunkResponse s.tls none).read 0
            (chunkResponse s.tls none).totalSize].flatten.length = 3
          rw [List.flatten_singleton, Buffer.length_read]
          simp [chunkResponse, sizeofPacketHeader]
      | some bytes =>
          have answer := bounded ⟨.read s.session.downloadFd maxChunkSize, some bytes⟩ (by simp)
          exact .inl (chunkResponse_headedFrame s.tls answer)

/-- An answer that is not the settings, and not twice, has a header or is a chunk cut short. -/
theorem dispatch_headed (answered : ty.isAnswered = true)
    (bounded : ∀ e ∈ events, ReadBounded e) (asks : ¬ AsksForSettings ty s.session)
    (found : ty = .reqFileDownloadChunk → ¬ ∃ e ∈ events, seekFailed e = true)
    (run : Exec (dispatch users fuel ty receiveBuffer cb s) events (.ok t)) :
    HeadedFrame (sends events) ∨ ChunkCut ty events := by
  rcases dispatch_cases run with ⟨-, -, refused⟩ | ⟨-, -, -, hout⟩ | ⟨handler, hopen, hhandler, run⟩
  · obtain ⟨rfl, -⟩ := exec_sendSampleResp_iff.mp refused
    exact .inl (headedFrame_sampleFrame _ _)
  · cases hout
  by_cases hsettings : ty = .reqGetSettings
  · subst hsettings
    cases hhandler
    exact .inl (headed_reqGetSettings asks (by simpa [PacketType.needsNoLogin] using hopen) run)
  by_cases hchunk : ty = .reqFileDownloadChunk
  · subst hchunk
    cases hhandler
    exact headed_reqFileDownloadChunk bounded (found rfl) run
  have once : ty.answersOnce = true := by
    cases ty <;> first | rfl | contradiction
  have serves : Serves fuel True _ (handler s) :=
    handlers_serve_headed hhandler (.inr trivial) fun _ => trivial
  exact .inl ((serves events _ run).2 once)

end Headed

/-! ### Requests that can be answered -/

/-- The strings that the handler takes from the packet end, the names of a compress request
among them. -/
def NamesTerminated (cb : ConnectionBuffer) (session : Session) (ty : PacketType) : Prop :=
  if ty = .reqCompress then
    (PacketCompress.archiveName cb.buffer).isSome = true ∧
      (PacketCompress.compressAll cb.buffer = true ∨ ∀ i < PacketCompress.fileCount cb.buffer,
        (PacketCompress.fileName cb.buffer i).isSome = true)
  else StringsEnd cb session ty

/-- No admin asks for the settings, and a request that is not refused for want of a login has
strings that end. -/
structure Answerable (cb : ConnectionBuffer) (session : Session) (ty : PacketType) : Prop where
  settings : ¬ AsksForSettings ty session
  ends : ty.needsNoLogin = false ∧ session.id = [] ∨ NamesTerminated cb session ty

/-- Libraries that fail without an exception. -/
def CompressionCall.absent : (call : CompressionCall) → call.Answer
  | .fileSize _ => (.ok 0 : Except FsError Nat)
  | call => call.failing

/-- A system without files, in which nothing throws. -/
def SysCall.absent : (op : SysCall) → op.Answer
  | .send _ => ()
  | .containerSizes => ((0, 0, 0) : Nat × Nat × Nat)
  | .cpuUsage => (0 : UInt8)
  | .memoryUsage => ((0, 0) : UInt64 × UInt64)
  | .uptime => (0 : UInt64)
  | .remove _ | .mkdir _ => false
  | .removeAll _ => (.ok 0 : Except FsError Nat)
  | .pathExists _ | .isDirectory _ | .copyFile _ _ => (.ok false : Except FsError Bool)
  | .openFile _ _ | .write _ _ _ | .close _ => (-1 : Int)
  | .lseek _ offset => (offset : Int)
  | .fstat _ => (none : Option Nat)
  | .read _ _ => (some [] : Option (List UInt8))
  | .weaklyCanonical _ => (.ok ⟨[], false, nofun, nofun⟩ : Except FsError FsPath)
  | .rename _ _ => (.ok () : Except FsError Unit)
  | .opendir _ => (none : Option (List Str))
  | .directoryIterator _ | .recursiveDirectoryIterator _ =>
      (.ok [] : Except FsError (List DirEntry))
  | .compression call => call.absent

/-- What its answers are not. -/
theorem absent_event {e : ServerEvent} (absent : e.ans = e.op.absent) :
    threw e = false ∧ seekFailed e = false ∧ readFailed e = false ∧ ReadBounded e := by
  obtain ⟨op, ans⟩ := e
  obtain rfl : ans = op.absent := absent
  cases op with
  | lseek fd offset => exact ⟨rfl, by simp [seekFailed, SysCall.absent], rfl, trivial⟩
  | read fd count => exact ⟨rfl, rfl, rfl, Nat.zero_le _⟩
  | compression call => cases call <;> exact ⟨rfl, rfl, rfl, trivial⟩
  | _ => exact ⟨rfl, rfl, rfl, trivial⟩

section Answers

variable {users : DatabaseHandler} {fuel : Nat} {ty : PacketType} {receiveBuffer : Buffer}
  {cb : ConnectionBuffer} {s : HandlerState}

/-- What a program returns in the system without files. -/
def inAbsence {α : Type} (p : ServerProg α) : Option α := evaluate (fun op => some op.absent) p

theorem inAbsence_bind {α β : Type} (p : ServerProg α) (f : α → ServerProg β) :
    inAbsence (p >>= f) = (inAbsence p).bind fun a => inAbsence (f a) :=
  evaluate_bind _ p f

/-- No archive is made there. -/
theorem inAbsence_compressWith (fuel : Nat) (format : Option Format) (archivePath : Str)
    (level : Int) :
    ∃ success, inAbsence (compressWith fuel format [] archivePath level) = some success := by
  rcases format with _ | format
  · exact ⟨false, rfl⟩
  · cases format <;> exact ⟨_, rfl⟩

/-- A listed name is not found there, and there is nothing below a directory. -/
theorem inAbsence_filesToCompress {p : Buffer} (session : Session)
    (ends : PacketCompress.compressAll p = true ∨
      ∀ i < PacketCompress.fileCount p, (PacketCompress.fileName p i).isSome = true) :
    ∃ files, inAbsence (filesToCompress session p) = some files ∧
      ∀ xs, files = some xs → xs = [] := by
  unfold filesToCompress
  split
  · exact ⟨some [], rfl, fun xs hxs => (Option.some.inj hxs).symm⟩
  rename_i all
  cases hcount : PacketCompress.fileCount p with
  | zero => exact ⟨some [], rfl, fun xs hxs => (Option.some.inj hxs).symm⟩
  | succ count =>
      obtain ⟨name, hname⟩ := Option.isSome_iff_exists.mp
        (ends.resolve_left all 0 (hcount ▸ Nat.succ_pos count))
      refine ⟨none, ?_, fun xs => nofun⟩
      rw [List.range_succ_eq_map, listedFiles, hname]
      rfl

theorem inAbsence_reqCompress (fuel : Nat) (ends : NamesTerminated cb s.session .reqCompress) :
    ∃ t, inAbsence (reqCompress fuel cb s) = some t := by
  obtain ⟨named, listed⟩ := ends
  obtain ⟨archiveName, hname⟩ := Option.isSome_iff_exists.mp named
  obtain ⟨files, hfiles, hempty⟩ := inAbsence_filesToCompress s.session listed
  unfold reqCompress
  dsimp only
  rw [hname, orUndefined, Prog.ret_bind, inAbsence_bind, hfiles, Option.bind_some]
  cases files with
  | none => exact ⟨_, rfl⟩
  | some files =>
      cases hempty files rfl
      obtain ⟨success, hsuccess⟩ := inAbsence_compressWith fuel
        (PacketCompress.format cb.buffer) (s.session.path archiveName)
        (getCompressionLevel (PacketCompress.compressionLevel cb.buffer)
          (PacketCompress.format cb.buffer))
      dsimp only
      rw [inAbsence_bind, hsuccess]
      exact ⟨_, rfl⟩

/-- Only the handler of a compress request has loops. -/
theorem handlers_fuel (h : ty ≠ .reqCompress) (fuel fuel' : Nat) :
    handlers users fuel receiveBuffer cb ty = handlers users fuel' receiveBuffer cb ty := by
  cases ty with
  | reqCompress => exact absurd rfl h
  | _ => rfl

/-- A request that is not refused for want of a login has a run in which its handler returns. -/
theorem Answerable.returns {events : List ServerEvent} {out : Except Fault HandlerState}
    (h : Answerable cb s.session ty) (request : ty.isRequest = true)
    (run : Exec (dispatch users fuel ty receiveBuffer cb s) events out)
    (absent : ∀ e ∈ events, e.ans = e.op.absent) : ∃ t, out = .ok t := by
  have quiet : ∀ e ∈ events, threw e = false := fun e hmem => (absent_event (absent e hmem)).1
  rcases dispatch_cases run with
    ⟨-, -, refused⟩ | ⟨-, hempty, -, -⟩ | ⟨handler, hopen, hhandler, served⟩
  · exact ⟨_, (exec_respond_iff.mp refused).2⟩
  · have hslot := handlers_isSome users fuel receiveBuffer cb ty
    rw [hempty, request] at hslot
    cases hslot
  have ends := h.ends.resolve_left hopen
  by_cases hcompress : ty = .reqCompress
  · subst hcompress
    cases hhandler
    obtain ⟨t, ht⟩ := inAbsence_reqCompress fuel ends
    exact ⟨t, served.eq_of_evaluate (fun e hmem => congrArg some (absent e hmem).symm) ht⟩
  · refine (dispatch_returns_iff run ?_).mpr (.inr ⟨request, ?_, quiet⟩)
    · rintro rfl
      -- More fuel would not do either.
      rw [handlers_fuel hcompress fuel (loopCalls events + 1)] at hhandler
      have serves : Serves (loopCalls events + 1) True _ (handler s) :=
        handlers_serve hhandler (.inr trivial) fun _ => trivial
      have := (serves events _ served).2
      change loopCalls events + 1 ≤ loopCalls events at this
      omega
    · rw [NamesTerminated, if_neg hcompress] at ends
      rw [HandlerDefined, if_neg hcompress]
      exact ends

end Answers

end ConcurrentTcp
