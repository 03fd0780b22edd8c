import ConcurrentTcp.Base.Environment
import ConcurrentTcp.Server.Responses

/-!
What is left in a worker's response buffer.

Every response is built in the buffer that the worker has used for all its responses,
and is sent with the bytes that its builder does not write. `sends_the_same_iff` says
for which requests these bytes can tell what was served before.
-/

namespace ConcurrentTcp

open Interaction

/-! ### Histories of a worker -/

/-- What a worker's response buffer can hold: it is zero at first, and then as the
requests that the worker served left it. -/
inductive TlsHistory : Buffer → Prop where
  | fresh : TlsHistory Buffer.zero
  | served {users : DatabaseHandler} {fuel : Nat} {tls receiveBuffer : Buffer}
      {cb : ConnectionBuffer} {session : Session} {g : GlobalState} {events : List ServerEvent}
      {t : HandlerState} : TlsHistory tls →
      Exec (processPacket users fuel receiveBuffer cb ⟨session, g, tls⟩) events (.ok t) →
      (∀ e ∈ events, ReadBounded e) → TlsHistory t.tls

/-! ### Bytes that a builder does not write -/

section Builders

variable {p : Buffer} {i : Nat}

theorem Buffer.setHeader_apply (b : Buffer) (t : PacketType) (n : Nat) (h : i = 0 ∨ 4 ≤ i) :
    b.setHeader t n i = b i := by
  rcases h with rfl | h
  · rw [Buffer.setHeader, Buffer.write_of_lt _ _ _ (by decide),
      Buffer.write_of_lt _ _ _ (by decide)]
  · exact Buffer.setHeader_of_le _ _ _ h

/-- The builder sends nothing, returns, and does not write byte `i`. -/
def Skips (i : Nat) (p : Buffer) (builder : ServerProg Buffer) : Prop :=
  Contract (fun _ => True) (fun e => sent? e = none) (fun out => ∃ q, out = .ok q ∧ q i = p i)
    builder

theorem Skips.ends {builder : ServerProg Buffer} (h : Skips i p builder) :
    Ends (fun q => q i = p i) builder := by
  apply h.mono (fun _ h => h) (fun _ _ _ => trivial)
  rintro _ ⟨q, rfl, hq⟩
  exact hq

/-- The padding before the memory readings, and the version. -/
theorem skips_createServerStatusPacket (p : Buffer) (h : i = 0 ∨ i = 4) :
    Skips i p (createServerStatusPacket p) := by
  intro cpuUsage _
  refine ⟨rfl, fun memory _ => ⟨rfl, fun uptimeSeconds _ => ⟨rfl, _, rfl, ?_⟩⟩⟩
  rw [Buffer.write_of_lt _ _ _ (by omega), Buffer.write_of_lt _ _ _ (by omega),
    Buffer.write_of_lt _ _ _ (by omega), Buffer.write_of_lt _ _ _ (by omega),
    Buffer.setHeader_apply _ _ _ (by omega)]

/-- The padding before the counts, and the version. -/
theorem skips_createConnectionsInfoPacket (p : Buffer) (h : i = 0 ∨ i = 4) :
    Skips i p (createConnectionsInfoPacket p) := by
  rintro ⟨completed, active, pending⟩ _
  refine ⟨rfl, _, rfl, ?_⟩
  rw [Buffer.write_of_lt _ _ _ (by omega), Buffer.write_of_lt _ _ _ (by omega),
    Buffer.write_of_lt _ _ _ (by omega), Buffer.setHeader_apply _ _ _ (by omega)]

/-- The names stay within their table. -/
theorem keeps_writeFileNames {count : Nat} (p : Buffer) (names : List Str)
    (hcount : count ≤ maxFiles) (h : i = 0 ∨ i = 32773) :
    (writeFileNames p count names).1 i = p i := by
  induction names generalizing p count with
  | nil => rfl
  | cons name rest ih =>
      unfold writeFileNames
      split
      · rename_i hroom
        split
        · exact ih p hcount
        · rw [ih _ (by omega)]
          simp only [maxFiles, maxFilenameLen] at hroom ⊢
          rcases h with rfl | rfl
          · rw [Buffer.write_of_lt _ _ _ (by omega), Buffer.write_of_lt _ _ _ (by omega)]
          · rw [Buffer.write_of_le _ _ _ (by simp; omega),
              Buffer.write_of_le _ _ _ (by simp; omega)]
      · rfl

theorem skips_writeUserFileList (usersDir : Str) (p : Buffer) (h : i = 0 ∨ i = 32773) :
    Skips i p (writeUserFileList usersDir p) := by
  rintro (_ | names) _
  · refine ⟨rfl, _, rfl, ?_⟩
    rcases h with rfl | rfl
    · exact Buffer.write_of_lt _ _ _ (by decide)
    · exact Buffer.write_of_le _ _ _ (by decide)
  · refine ⟨rfl, _, rfl, ?_⟩
    have kept := keeps_writeFileNames p names (Nat.zero_le _) h
    rcases h with rfl | rfl
    · exact (Buffer.write_of_lt _ _ _ (by decide)).trans kept
    · exact (Buffer.write_of_le _ _ _ (by simp)).trans kept

/-- The padding behind the names, and the version. -/
theorem skips_createFileListPacket (currentDir : Str) (p : Buffer) (h : i = 0 ∨ i = 32773) :
    Skips i p (createFileListPacket currentDir p) := by
  apply Contract.bind
  apply (skips_writeUserFileList currentDir p h).mono (fun _ h => h) (fun _ _ h => h)
  rintro _ ⟨q, rfl, hq⟩
  exact ⟨_, rfl, (Buffer.setHeader_apply _ _ _ (by omega)).trans hq⟩

theorem keeps_createCurrentUserPacket (id : Str) (p : Buffer) (h : i = 0 ∨ i = 259) :
    createCurrentUserPacket id p i = p i := by
  rw [createCurrentUserPacket]
  rcases h with rfl | rfl
  · rw [Buffer.write_of_lt _ _ _ (by decide), Buffer.setHeader_apply _ _ _ (by decide)]
  · rw [Buffer.write_of_le _ _ _ (by simp), Buffer.setHeader_apply _ _ _ (by decide)]

theorem keeps_createSettingsRespPacket (g : GlobalState) (p : Buffer) (h : i = 0 ∨ i = 5) :
    createSettingsRespPacket g p i = p i := by
  rw [createSettingsRespPacket, Buffer.setHeader_apply _ _ _ (by omega)]
  rcases h with rfl | rfl
  · exact Buffer.write_of_lt _ _ _ (by decide)
  · exact Buffer.write_of_le _ _ _ (by simp)

theorem keeps_createLoggedInPacket (isAdmin : Bool) (p : Buffer) (h : i = 0 ∨ i = 5) :
    createLoggedInPacket isAdmin p i = p i := by
  rw [createLoggedInPacket]
  rcases h with rfl | rfl
  · rw [Buffer.write_of_lt _ _ _ (by decide), Buffer.setHeader_apply _ _ _ (by decide)]
  · rw [Buffer.write_of_le _ _ _ (by simp), Buffer.setHeader_apply _ _ _ (by decide)]

theorem keeps_createChunkInfoPacket (p : Buffer) (chunkCount : Nat) (name : Str)
    (h : i = 0 ∨ i = 4) : createChunkInfoPacket p chunkCount name i = p i := by
  rw [createChunkInfoPacket, Buffer.write_of_lt _ _ _ (by omega),
    Buffer.write_of_lt _ _ _ (by omega), Buffer.setHeader_apply _ _ _ (by omega)]

end Builders

/-! ### The version -/

/-- The version in the header, which no builder writes. -/
def VersionIsZero (t : HandlerState) : Prop := t.tls 0 = 0

section Version

variable {users : DatabaseHandler} {fuel : Nat} {receiveBuffer : Buffer} {cb : ConnectionBuffer}
  {ty : PacketType} {s : HandlerState} {p : Buffer}

theorem version_respond {length : Nat} (h : p 0 = 0) : Ends VersionIsZero (s.respond p length) :=
  fun _ _ => ⟨trivial, h⟩

theorem version_sample {answer : PacketType} (h : VersionIsZero s) :
    Ends VersionIsZero (sendSampleResp s answer) :=
  version_respond ((Buffer.setHeader_apply _ _ _ (.inl rfl)).trans h)

/-- A check that needs the admin. -/
theorem version_admin {handler : ServerProg HandlerState} (h : VersionIsZero s)
    (later : Ends VersionIsZero handler) :
    Ends VersionIsZero (if !s.session.isAdmin then sendRespNotAdmin s else handler) := by
  split
  · exact version_sample h
  · exact later

theorem version_builder {builder : ServerProg Buffer} {length : Nat} (h : VersionIsZero s)
    (keeps : Ends (fun q => q 0 = s.tls 0) builder) :
    Ends VersionIsZero (builder >>= fun p => s.respond p length) :=
  keeps.seq fun _ hp => version_respond (hp.trans h)

theorem version_reqLogin (cb : ConnectionBuffer) (h : VersionIsZero s) :
    Ends VersionIsZero (reqLogin users cb s) := by
  have loggedIn : ∀ {t : HandlerState}, t.tls = s.tls → Ends VersionIsZero (sendLoggedIn t) := by
    intro t ht
    apply version_respond
    rw [keeps_createLoggedInPacket _ _ (.inl rfl), ht]
    exact h
  refine .after fun inPacket => ?_
  split
  · refine .after fun _ => ?_
    split
    · split
      · exact version_sample h
      · exact loggedIn rfl
    · exact loggedIn rfl
  · exact version_sample h

theorem version_reqFileOpen (cb : ConnectionBuffer) (h : VersionIsZero s) :
    Ends VersionIsZero (reqFileOpen cb s) := by
  refine .after fun name => ?_
  split
  · exact version_sample h
  refine .after fun filePath => .after fun (file : Int) => ?_
  split
  · exact version_sample h
  refine .after fun (fileSize : Option Nat) => ?_
  cases fileSize with
  | none => exact version_sample h
  | some fileSize =>
      exact version_respond ((keeps_createChunkInfoPacket _ _ _ (.inl rfl)).trans h)

theorem version_chunkResponse (tls : Buffer) (data : Option (List UInt8)) :
    chunkResponse tls data 0 = tls 0 := by
  cases data with
  | none => exact Buffer.setHeader_apply _ _ _ (.inl rfl)
  | some bytes =>
      exact (Buffer.setHeader_apply _ _ _ (.inl rfl)).trans
        (Buffer.write_of_lt _ _ _ (by decide))

theorem version_reqFileDownloadChunk (cb : ConnectionBuffer) (h : VersionIsZero s) :
    Ends VersionIsZero (reqFileDownloadChunk cb s) := by
  have made : Ends (fun chunk => chunk.2 0 = s.tls 0) (createChunkPacket s.tls
      (PacketDownloadChunk.decodeChunkIndex cb.buffer) s.session.downloadFd) := by
    refine .after fun (position : Int) => ?_
    split
    · exact .after fun _ => rfl
    · refine .after fun (data : Option (List UInt8)) => ?_
      cases data with
      | none => exact version_chunkResponse s.tls none
      | some bytes => exact version_chunkResponse s.tls (some bytes)
  apply made.seq
  rintro ⟨output, q⟩ hq
  have hzero : q 0 = 0 := hq.trans h
  dsimp only
  split
  · apply (version_sample _).seq
    · exact fun t ht => version_respond ht
    · exact hzero
  · exact version_respond hzero

theorem version_transferPath {operation : Str → Str → ServerProg Bool} (cb : ConnectionBuffer)
    (h : VersionIsZero s) : Ends VersionIsZero (transferPath operation cb s) := by
  refine .after fun inPacket => .after fun _ => .after fun userDir => .after fun _ =>
    .after fun currentDir => .after fun _ => .after fun source => .after fun _ =>
    .after fun destination => .after fun sourceInside => ?_
  split
  · exact version_sample h
  refine .after fun destinationInside => ?_
  split
  · exact version_sample h
  · exact .after fun done => version_sample h

/-- Every handler leaves the version. -/
theorem handlers_keep_version {handler : HandlerState → ServerProg HandlerState}
    (hhandler : handlers users fuel receiveBuffer cb ty = some handler) (h : VersionIsZero s) :
    Ends VersionIsZero (handler s) := by
  cases ty, handler, hhandler using handlers_cases with
  | reqServerStatus =>
      exact version_admin h (version_builder h (skips_createServerStatusPacket _ (.inl rfl)).ends)
  | reqConnectionsInfo =>
      exact version_admin h
        (version_builder h (skips_createConnectionsInfoPacket _ (.inl rfl)).ends)
  | reqCrcVerify => exact h
  | reqLogout => exact version_sample h
  | reqCurrentDirectory =>
      apply version_respond
      exact (Buffer.setHeader_apply _ _ _ (.inl rfl)).trans
        ((Buffer.write_of_lt _ _ _ (by decide)).trans h)
  | reqRemovePath =>
      refine .after fun name => ?_
      split
      · exact version_sample h
      refine .after fun file => ?_
      split
      · exact version_sample h
      · exact .after fun directory => version_sample h
  | reqMkdir =>
      refine .after fun name => ?_
      split
      · exact version_sample h
      · exact .after fun made => version_sample h
  | reqChangeWorkingDirectory =>
      refine .after fun path => .after fun newDir => ?_
      split
      · exact version_sample h
      · exact version_sample h
  | reqFileOpen => exact version_reqFileOpen cb h
  | reqFileDownloadChunk => exact version_reqFileDownloadChunk cb h
  | reqFileClose =>
      refine .after fun (closed : Int) => ?_
      split
      · exact .after fun _ => version_sample h
      · exact version_sample h
  | reqMoveFile => exact version_transferPath cb h
  | reqCopyFile => exact version_transferPath cb h
  | reqPing => exact version_sample h
  | reqGetCurrentUser =>
      exact version_respond ((keeps_createCurrentUserPacket _ _ (.inl rfl)).trans h)
  | reqFileTransferStart =>
      refine .after fun name => ?_
      split
      · exact version_sample h
      · exact .after fun file => version_sample h
  | reqFileTransferChunk => exact .after fun _ => version_sample h
  | reqFileTransferEnd => exact .after fun _ => version_sample h
  | reqGetSettings =>
      exact version_admin h
        (version_respond ((keeps_createSettingsRespPacket _ _ (.inl rfl)).trans h))
  | reqSetSetting => exact version_admin h (version_sample h)
  | reqFileList => exact version_builder h (skips_createFileListPacket _ _ (.inl rfl)).ends
  | reqLogin => exact version_reqLogin cb h
  | reqCompress =>
      refine .after fun archiveName => .after fun files => ?_
      cases files with
      | none => exact version_sample h
      | some files => exact .after fun success => version_sample h
  | reqClean =>
      exact version_admin h (.after fun _ => .after fun entries => .after fun _ => version_sample h)

/-- No request leaves another version in the buffer. -/
theorem VersionIsZero.of_dispatch {events : List ServerEvent} {t : HandlerState}
    (h : VersionIsZero s) (run : Exec (dispatch users fuel ty receiveBuffer cb s) events (.ok t)) :
    VersionIsZero t := by
  rcases dispatch_cases run with ⟨-, -, refused⟩ | ⟨-, -, -, hend⟩ | ⟨handler, -, hhandler, run⟩
  · exact (version_sample h).returns refused
  · cases hend
  · exact (handlers_keep_version hhandler h).returns run

theorem TlsHistory.version {tls : Buffer} (history : TlsHistory tls) : tls 0 = 0 := by
  induction history with
  | fresh => rfl
  | @served users fuel tls receiveBuffer cb session g events t _ run _ ih =>
      exact VersionIsZero.of_dispatch (s := ⟨session, g, tls⟩) ih run

end Version

/-! ### Answers that look alike -/

/-- Files and readings do not depend on what was sent. -/
def SysCall.leavesTrace : SysCall → Bool
  | .send _ => false
  | _ => true

/-- In each environment, the same bytes are sent. -/
abbrev SendsAlike (p q : ServerProg HandlerState) : Prop := Alike sent? SysCall.leavesTrace p q

section Alike

variable {tls tls' : Buffer} {session : Session} {g : GlobalState} {ty : PacketType}

theorem observed_respond (env : Environment SysCall SysCall.Answer) (past : List ServerEvent)
    (s : HandlerState) (p : Buffer) (length : Nat) :
    observed sent? SysCall.leavesTrace env past (s.respond p length) = [p.read 0 length] := rfl

theorem Buffer.write_congr {p q : Buffer} {off i : Nat} {bytes : List UInt8}
    (h : p i = q i ∨ off ≤ i ∧ i < off + bytes.length) :
    p.write off bytes i = q.write off bytes i := by
  simp only [write]
  rcases h with h | h
  · rw [h]
  · rw [if_pos h, if_pos h]

theorem Buffer.setHeader_congr {p q : Buffer} {n i : Nat} (h : p i = q i ∨ 1 ≤ i ∧ i < 4) :
    p.setHeader ty n i = q.setHeader ty n i := by
  apply write_congr
  by_cases hi : 2 ≤ i ∧ i < 4
  · exact .inr hi
  · refine .inl (write_congr (h.imp_right fun hi => ?_))
    simp
    omega

theorem alike_respond {s t : HandlerState} {p q : Buffer} {length : Nat}
    (h : ∀ i, i < length → p i = q i) : SendsAlike (s.respond p length) (t.respond q length) := by
  intro env past
  rw [observed_respond, observed_respond, Buffer.read_congr fun i _ hi => h i (by omega)]

/-- A sample depends on the version only. -/
theorem sampleFrame_congr (h : tls 0 = tls' 0) : sampleFrame tls ty = sampleFrame tls' ty := by
  apply Buffer.read_congr
  intro i _ hi
  apply Buffer.setHeader_congr
  rcases Nat.eq_zero_or_pos i with rfl | hpos
  · exact .inl h
  · exact .inr ⟨hpos, by simpa [sizeofSamplePacket] using hi⟩

theorem alike_sample {s t : HandlerState} (h : s.tls 0 = t.tls 0) :
    SendsAlike (sendSampleResp s ty) (sendSampleResp t ty) :=
  fun _ _ => congrArg (fun frame => [frame]) (sampleFrame_congr h)

theorem alike_currentDirectory (h : tls 0 = tls' 0) :
    SendsAlike (reqCurrentDirectory ⟨session, g, tls⟩)
      (reqCurrentDirectory ⟨session, g, tls'⟩) := by
  apply alike_respond
  intro i hi
  apply Buffer.setHeader_congr
  rcases Nat.eq_zero_or_pos i with rfl | hpos
  · exact .inl (Buffer.write_congr (.inl h))
  · by_cases hheader : i < 4
    · exact .inr ⟨hpos, hheader⟩
    · exact .inl (Buffer.write_congr (.inr ⟨by omega, by rwa [length_strncpy]⟩))

/-- A chunk response is written whole, but for the version. -/
theorem read_chunkResponse_congr (h : tls 0 = tls' 0) (data : Option (List UInt8)) :
    (chunkResponse tls data).read 0 (chunkResponse tls data).totalSize =
      (chunkResponse tls' data).read 0 (chunkResponse tls' data).totalSize := by
  cases data with
  | none =>
      simp only [chunkResponse, Buffer.totalSize_setHeader]
      apply Buffer.read_congr
      intro i _ hi
      apply Buffer.setHeader_congr
      rcases Nat.eq_zero_or_pos i with rfl | hpos
      · exact .inl h
      · exact .inr ⟨hpos, Nat.lt_trans hi (by decide)⟩
  | some bytes =>
      simp only [chunkResponse, Buffer.totalSize_setHeader]
      apply Buffer.read_congr
      intro i _ hi
      have hlen : i < 4 + bytes.length := by
        have := Nat.mod_le (bytes.length + sizeofPacketHeader) (2 ^ 16)
        unfold sizeofPacketHeader at *
        omega
      apply Buffer.setHeader_congr
      rcases Nat.eq_zero_or_pos i with rfl | hpos
      · exact .inl (Buffer.write_congr (.inl h))
      · by_cases hheader : i < 4
        · exact .inr ⟨hpos, hheader⟩
        · exact .inl (Buffer.write_congr (.inr ⟨by omega, hlen⟩))

theorem alike_chunkResponse {s t : HandlerState} (h : tls 0 = tls' 0)
    (data : Option (List UInt8)) :
    SendsAlike (s.respond (chunkResponse tls data) (chunkResponse tls data).totalSize)
      (t.respond (chunkResponse tls' data) (chunkResponse tls' data).totalSize) :=
  fun _ _ => congrArg (fun frame => [frame]) (read_chunkResponse_congr h data)

/-- The answer that the download handler gives twice. -/
theorem alike_sampleTwice {s t : HandlerState} (h : s.tls 0 = t.tls 0) :
    SendsAlike (do let s ← sendSampleResp s ty; s.respond s.tls s.tls.totalSize)
      (do let t ← sendSampleResp t ty; t.respond t.tls t.tls.totalSize) := by
  have frames (s : HandlerState) (env : Environment SysCall SysCall.Answer)
      (past : List ServerEvent) :
      observed sent? SysCall.leavesTrace env past
        (do let s ← sendSampleResp s ty; s.respond s.tls s.tls.totalSize) =
        [sampleFrame s.tls ty, sampleFrame s.tls ty] :=
    congrArg (fun frame => [sampleFrame s.tls ty, frame]) (read_setHeader_totalSize s.tls ty)
  intro env past
  rw [frames, frames, sampleFrame_congr h]

theorem alike_reqFileDownloadChunk (cb : ConnectionBuffer) (h : tls 0 = tls' 0) :
    SendsAlike (reqFileDownloadChunk cb ⟨session, g, tls⟩)
      (reqFileDownloadChunk cb ⟨session, g, tls'⟩) := by
  unfold reqFileDownloadChunk createChunkPacket
  simp only [sys_bind]
  apply Alike.call
  intro position
  simp only [Prog.bind]
  split
  · apply Alike.call
    intro closed
    exact alike_sampleTwice h
  · apply Alike.call
    rintro (_ | bytes)
    · exact alike_chunkResponse h none
    · exact alike_chunkResponse h (some bytes)

theorem alike_transferPath {operation : Str → Str → ServerProg Bool} (cb : ConnectionBuffer)
    (h : tls 0 = tls' 0) : SendsAlike (transferPath operation cb ⟨session, g, tls⟩)
      (transferPath operation cb ⟨session, g, tls'⟩) := by
  apply Alike.bind; intro inPacket
  apply Alike.bind; intro _
  apply Alike.bind; intro userDir
  apply Alike.bind; intro _
  apply Alike.bind; intro currentDir
  apply Alike.bind; intro _
  apply Alike.bind; intro source
  apply Alike.bind; intro _
  apply Alike.bind; intro destination
  apply Alike.bind; intro sourceInside
  apply Alike.ite (alike_sample h)
  apply Alike.bind; intro destinationInside
  apply Alike.ite (alike_sample h)
  exact Alike.bind fun done => alike_sample h

end Alike

/-! ### Requests whose answers have gaps -/

/-- The login is accepted, and no other admin keeps it out. -/
def LoginAccepted (users : DatabaseHandler) (cb : ConnectionBuffer) (g : GlobalState) : Prop :=
  ∃ inPacket, PacketLogin.decode cb.buffer = some inPacket ∧
    users.login inPacket.username inPacket.password = true ∧
    ¬ (users.isAdmin inPacket.username = true ∧ g.bAdminConnected = true)

/-- The file can be opened and has a size. -/
def FileOpens (env : Environment SysCall SysCall.Answer) (cb : ConnectionBuffer)
    (session : Session) : Prop :=
  ∃ name filePath, PacketDownloadFile.decodePath cb.buffer = some name ∧
    isValidFilename name = true ∧ sprintfPath session name = some filePath ∧
    ∃ file : Int, env [] (.openFile filePath false) = file ∧ 0 < file ∧
      env [⟨.openFile filePath false, file⟩] (.fstat file) ≠ none

/-- The request is answered with a structure that its builder does not fill. -/
def LeavesGaps (users : DatabaseHandler) (env : Environment SysCall SysCall.Answer)
    (cb : ConnectionBuffer) (session : Session) (g : GlobalState) : PacketType → Prop
  | .reqServerStatus | .reqConnectionsInfo | .reqGetSettings =>
      session.id ≠ [] ∧ session.isAdmin = true
  | .reqGetCurrentUser | .reqFileList => session.id ≠ []
  | .reqLogin => LoginAccepted users cb g
  | .reqFileOpen => session.id ≠ [] ∧ FileOpens env cb session
  | _ => False

section NoGaps

variable {users : DatabaseHandler} {env : Environment SysCall SysCall.Answer} {fuel : Nat}
  {receiveBuffer : Buffer} {cb : ConnectionBuffer} {session : Session} {g : GlobalState}
  {tls tls' : Buffer} {ty : PacketType}

/-- The bytes that a program sends in the environment. -/
abbrev sentIn (env : Environment SysCall SysCall.Answer) (p : ServerProg HandlerState) :
    List (List UInt8) :=
  observed sent? SysCall.leavesTrace env [] p

theorem sentIn_notAdmin {first second : ServerProg HandlerState} (h : tls 0 = tls' 0)
    (hadmin : ¬ session.isAdmin = true) :
    sentIn env (if !session.isAdmin then sendRespNotAdmin ⟨session, g, tls⟩ else first) =
      sentIn env (if !session.isAdmin then sendRespNotAdmin ⟨session, g, tls'⟩ else second) := by
  rw [if_pos (by simpa using hadmin), if_pos (by simpa using hadmin)]
  exact alike_sample h env []

theorem sentIn_reqLogin (h : tls 0 = tls' 0) (hgaps : ¬ LoginAccepted users cb g) :
    sentIn env (reqLogin users cb ⟨session, g, tls⟩) =
      sentIn env (reqLogin users cb ⟨session, g, tls'⟩) := by
  unfold reqLogin
  cases hdecode : PacketLogin.decode cb.buffer with
  | none => exact Alike.fail _ env []
  | some inPacket =>
      simp only [orUndefined, Prog.ret_bind]
      by_cases hlogin : users.login inPacket.username inPacket.password = true
      · have keptOut : users.isAdmin inPacket.username = true ∧ g.bAdminConnected = true := by
          by_contra hadmin
          exact hgaps ⟨inPacket, hdecode, hlogin, hadmin⟩
        simp only [if_pos hlogin, if_pos keptOut.1, if_pos keptOut.2]
        exact Alike.bind (fun _ => alike_sample h) env []
      · simp only [if_neg hlogin]
        exact alike_sample h env []

theorem sentIn_reqFileOpen (h : tls 0 = tls' 0) (hgaps : ¬ FileOpens env cb session) :
    sentIn env (reqFileOpen cb ⟨session, g, tls⟩) =
      sentIn env (reqFileOpen cb ⟨session, g, tls'⟩) := by
  unfold reqFileOpen
  cases hname : PacketDownloadFile.decodePath cb.buffer with
  | none => exact Alike.fail _ env []
  | some name =>
      simp only [orUndefined, Prog.ret_bind]
      by_cases hvalid : isValidFilename name = true
      · simp only [hvalid, Bool.not_true, Bool.false_eq_true, if_false]
        cases hpath : sprintfPath session name with
        | none => exact Alike.fail _ env []
        | some filePath =>
            simp only [Prog.ret_bind]
            apply observed_call_congr
            have unopened (file : Int) (hfile : env [] (.openFile filePath false) = file) :
                file ≤ 0 ∨ env [⟨.openFile filePath false, file⟩] (.fstat file) = none := by
              by_contra! hopens
              exact hgaps ⟨name, filePath, hname, hvalid, hpath, file, hfile, hopens⟩
            simp only [remember, SysCall.leavesTrace, if_true, List.nil_append, Prog.bind]
            generalize hfile : env [] (.openFile filePath false) = file
            rcases unopened file hfile with hnone | hsize
            · simp only [if_pos hnone]
              exact alike_sample h _ _
            · split
              · exact alike_sample h _ _
              · apply observed_call_congr
                simp only [Prog.bind, hsize]
                exact alike_sample h _ _
      · simp only [hvalid, Bool.not_false, if_true]
        exact alike_sample h env []

/-- Without gaps, the answer depends on the version only. -/
theorem handlers_alike {handler : HandlerState → ServerProg HandlerState}
    (hhandler : handlers users fuel receiveBuffer cb ty = some handler)
    (hid : ty.needsNoLogin = true ∨ session.id ≠ [])
    (hgaps : ¬ LeavesGaps users env cb session g ty) (h : tls 0 = tls' 0) :
    sentIn env (handler ⟨session, g, tls⟩) = sentIn env (handler ⟨session, g, tls'⟩) := by
  have alike {p q : ServerProg HandlerState} (h : SendsAlike p q) : sentIn env p = sentIn env q :=
    h env []
  cases ty, handler, hhandler using handlers_cases with
  | reqServerStatus =>
      exact sentIn_notAdmin h fun hadmin => hgaps ⟨hid.resolve_left (by decide), hadmin⟩
  | reqConnectionsInfo =>
      exact sentIn_notAdmin h fun hadmin => hgaps ⟨hid.resolve_left (by decide), hadmin⟩
  | reqCrcVerify => rfl
  | reqLogout => exact alike (alike_sample h)
  | reqCurrentDirectory => exact alike (alike_currentDirectory h)
  | reqRemovePath =>
      apply alike
      apply Alike.bind; intro name
      apply Alike.ite (alike_sample h)
      apply Alike.bind; intro file
      apply Alike.ite (alike_sample h)
      exact Alike.bind fun directory => alike_sample h
  | reqMkdir =>
      apply alike
      apply Alike.bind; intro name
      apply Alike.ite (alike_sample h)
      exact Alike.bind fun made => alike_sample h
  | reqChangeWorkingDirectory =>
      apply alike
      apply Alike.bind; intro path
      apply Alike.bind; intro newDir
      exact Alike.ite (alike_sample h) (alike_sample h)
  | reqFileOpen =>
      exact sentIn_reqFileOpen h fun opens => hgaps ⟨hid.resolve_left (by decide), opens⟩
  | reqFileDownloadChunk => exact alike (alike_reqFileDownloadChunk cb h)
  | reqFileClose =>
      apply alike
      apply Alike.bind; intro closed
      apply Alike.ite
      · exact Alike.bind fun _ => alike_sample h
      · exact alike_sample h
  | reqMoveFile => exact alike (alike_transferPath cb h)
  | reqCopyFile => exact alike (alike_transferPath cb h)
  | reqPing => exact alike (alike_sample h)
  | reqGetCurrentUser => exact absurd (hid.resolve_left (by decide)) hgaps
  | reqFileTransferStart =>
      apply alike
      apply Alike.bind; intro name
      apply Alike.ite (alike_sample h)
      exact Alike.bind fun file => alike_sample h
  | reqFileTransferChunk => exact alike (Alike.bind fun _ => alike_sample h)
  | reqFileTransferEnd => exact alike (Alike.bind fun _ => alike_sample h)
  | reqGetSettings =>
      exact sentIn_notAdmin h fun hadmin => hgaps ⟨hid.resolve_left (by decide), hadmin⟩
  | reqSetSetting => exact alike (Alike.ite (alike_sample h) (alike_sample h))
  | reqFileList => exact absurd (hid.resolve_left (by decide)) hgaps
  | reqLogin => exact sentIn_reqLogin h hgaps
  | reqCompress =>
      apply alike
      apply Alike.bind; intro archiveName
      apply Alike.bind; intro files
      cases files with
      | none => exact alike_sample h
      | some files => exact Alike.bind fun success => alike_sample h
  | reqClean =>
      apply alike
      apply Alike.ite (alike_sample h)
      apply Alike.bind; intro _
      apply Alike.bind; intro entries
      exact Alike.bind fun _ => alike_sample h

theorem dispatch_alike (hgaps : ¬ LeavesGaps users env cb session g ty) (h : tls 0 = tls' 0) :
    sentIn env (dispatch users fuel ty receiveBuffer cb ⟨session, g, tls⟩) =
      sentIn env (dispatch users fuel ty receiveBuffer cb ⟨session, g, tls'⟩) := by
  unfold dispatch
  split
  · exact alike_sample h env []
  · rename_i hlogin
    cases hhandler : handlers users fuel receiveBuffer cb ty with
    | none => rfl
    | some handler =>
        have authorized : ty.needsNoLogin = true ∨ session.id ≠ [] := by
          by_cases hneeds : ty.needsNoLogin = true
          · exact .inl hneeds
          · exact .inr fun hid => hlogin (by simp [hneeds, hid])
        exact handlers_alike hhandler authorized hgaps h

end NoGaps

/-! ### Gaps -/

/-- The answer is one message, and shows byte `i` of the buffer it was built in. -/
def Shows (i : Nat) (tls : Buffer) (env : Environment SysCall SysCall.Answer)
    (past : List ServerEvent) (p : ServerProg HandlerState) : Prop :=
  ∃ (q : Buffer) (length : Nat), observed sent? SysCall.leavesTrace env past p = [q.read 0 length] ∧
    i < length ∧ q i = tls i

section Gaps

variable {users : DatabaseHandler} {env : Environment SysCall SysCall.Answer}
  {past : List ServerEvent} {fuel : Nat} {receiveBuffer : Buffer} {cb : ConnectionBuffer}
  {session : Session} {g : GlobalState} {tls tls' : Buffer} {ty : PacketType} {i : Nat}

theorem shows_respond {s : HandlerState} {q : Buffer} {length : Nat} (hi : i < length)
    (hq : q i = tls i) : Shows i tls env past (s.respond q length) :=
  ⟨q, length, rfl, hi, hq⟩

theorem Skips.shows {s : HandlerState} {builder : ServerProg Buffer} {length : Nat}
    (h : Skips i tls builder) (hi : i < length) :
    Shows i tls env past (builder >>= fun q => s.respond q length) := by
  have run := exec_runIn SysCall.leavesTrace env past builder
  obtain ⟨quiet, q, hend, hq⟩ := h.sound run fun _ _ => trivial
  refine ⟨q, length, ?_, hi, hq⟩
  rw [observed, runIn_bind _ _ hend, List.filterMap_append, List.filterMap_eq_nil_iff.mpr quiet]
  rfl

theorem Shows.call {op : SysCall} {next : op.Answer → ServerProg HandlerState}
    (hidden : sent? ⟨op, env past op⟩ = none)
    (later : Shows i tls env (remember SysCall.leavesTrace env past op) (next (env past op))) :
    Shows i tls env past (.call op next) := by
  unfold Shows
  rw [observed_call hidden]
  exact later

theorem Shows.ne {p p' : ServerProg HandlerState} (h : Shows i tls env past p)
    (h' : Shows i tls' env past p') (hne : tls i ≠ tls' i) :
    observed sent? SysCall.leavesTrace env past p ≠
      observed sent? SysCall.leavesTrace env past p' := by
  obtain ⟨q, length, hsent, hi, hq⟩ := h
  obtain ⟨q', length', hsent', hi', hq'⟩ := h'
  rw [hsent, hsent']
  intro same
  have bytes : q.read 0 length = q'.read 0 length' := (List.cons.inj same).1
  have byte : (q.read 0 length)[i]? = (q'.read 0 length')[i]? := congrArg (·[i]?) bytes
  rw [Buffer.getElem?_read _ _ hi, Buffer.getElem?_read _ _ hi', Nat.zero_add, hq, hq'] at byte
  exact hne (Option.some.inj byte)

theorem shows_reqLogin (h : LoginAccepted users cb g) :
    Shows 5 tls env past (reqLogin users cb ⟨session, g, tls⟩) := by
  obtain ⟨inPacket, hdecode, hlogin, hadmin⟩ := h
  have loggedIn {s : HandlerState} {past : List ServerEvent} (hs : s.tls = tls) :
      Shows 5 tls env past (sendLoggedIn s) :=
    shows_respond (by decide) (by rw [keeps_createLoggedInPacket _ _ (.inr rfl), hs])
  unfold reqLogin
  simp only [hdecode, orUndefined, Prog.ret_bind, if_pos hlogin]
  apply Shows.call rfl
  simp only [Prog.bind]
  split
  · rename_i admin
    rw [if_neg fun connected => hadmin ⟨admin, connected⟩]
    exact loggedIn rfl
  · exact loggedIn rfl

theorem shows_reqFileOpen (h : FileOpens env cb session) :
    Shows 4 tls env [] (reqFileOpen cb ⟨session, g, tls⟩) := by
  obtain ⟨name, filePath, hname, hvalid, hpath, _, rfl, hpos, hsize⟩ := h
  obtain ⟨fileSize, hsize⟩ := Option.ne_none_iff_exists'.mp hsize
  unfold reqFileOpen
  simp only [hname, orUndefined, Prog.ret_bind, hvalid, Bool.not_true, Bool.false_eq_true, if_false,
    hpath]
  apply Shows.call rfl
  simp only [remember, SysCall.leavesTrace, if_true, List.nil_append, Prog.bind]
  rw [if_neg (not_le.mpr hpos)]
  apply Shows.call rfl
  simp only [Prog.bind, hsize]
  have room : 4 < sizeofPacketDownloadedFileInfo := by decide
  exact shows_respond room (keeps_createChunkInfoPacket _ _ _ (.inr rfl))

/-- An answer with gaps shows a byte behind the header. -/
theorem LeavesGaps.shows (fuel : Nat) (receiveBuffer : Buffer)
    (h : LeavesGaps users env cb session g ty) :
    ∃ i, 4 ≤ i ∧ i < uint16Max ∧ ∀ tls,
      Shows i tls env [] (dispatch users fuel ty receiveBuffer cb ⟨session, g, tls⟩) := by
  unfold LeavesGaps at h
  split at h
  · refine ⟨4, by decide, by decide, fun tls => ?_⟩
    rw [dispatch_authorized h.1 rfl, reqServerStatus, if_neg (by simp [h.2])]
    exact (skips_createServerStatusPacket tls (.inr rfl)).shows (by decide)
  · refine ⟨4, by decide, by decide, fun tls => ?_⟩
    rw [dispatch_authorized h.1 rfl, reqConnectionsInfo, if_neg (by simp [h.2])]
    exact (skips_createConnectionsInfoPacket tls (.inr rfl)).shows (by decide)
  · refine ⟨5, by decide, by decide, fun tls => ?_⟩
    rw [dispatch_authorized h.1 rfl, reqGetSettings, if_neg (by simp [h.2])]
    exact shows_respond (by decide) (keeps_createSettingsRespPacket _ _ (.inr rfl))
  · refine ⟨259, by decide, by decide, fun tls => ?_⟩
    rw [dispatch_authorized h rfl]
    exact shows_respond (by decide) (keeps_createCurrentUserPacket _ _ (.inr rfl))
  · refine ⟨32773, by decide, by decide, fun tls => ?_⟩
    rw [dispatch_authorized h rfl]
    exact (skips_createFileListPacket _ tls (.inr rfl)).shows (by decide)
  · refine ⟨5, by decide, by decide, fun tls => ?_⟩
    exact shows_reqLogin h
  · refine ⟨4, by decide, by decide, fun tls => ?_⟩
    rw [dispatch_authorized h.1 rfl]
    exact shows_reqFileOpen h.2
  · cases h

end Gaps

/-! ### Two histories -/

/-- After the download of a chunk of ones, they are still there. -/
theorem exists_history_of_ones :
    ∃ tls, TlsHistory tls ∧ ∀ i, 4 ≤ i → i < uint16Max → tls i = 1 := by
  let s : HandlerState := ⟨{ Session.accepted 5 with id := [1] }, .initial, Buffer.zero⟩
  let receiveBuffer := Buffer.zero.setHeader .reqFileDownloadChunk sizeofPacketDownloadChunk
  let ones : List UInt8 := List.replicate maxChunkSize 1
  have asked : getPacketType receiveBuffer = .reqFileDownloadChunk := by decide
  have answer : DownloadChunkExec ⟨0, []⟩ s _ _ := .answered (some ones)
  have run := exec_reqFileDownloadChunk_iff.mpr ⟨_, rfl, answer⟩
  have served : processPacket exampleUsers 0 receiveBuffer ⟨0, []⟩ s =
      reqFileDownloadChunk ⟨0, []⟩ s := by
    rw [processPacket, asked, dispatch_authorized (by simp [s]) rfl]
  rw [← served] at run
  refine ⟨_, .served .fresh run (by simp [ReadBounded, ones]), fun i hheader hroom => ?_⟩
  have hlen : ones.length = maxChunkSize := List.length_replicate
  have hwritten : 4 ≤ i ∧ i < 4 + ones.length := by
    rw [hlen]
    unfold maxChunkSize sizeofPacketHeader
    omega
  dsimp only [chunkResponse]
  rw [Buffer.setHeader_of_le _ _ _ hheader, Buffer.write, if_pos hwritten, List.getD_replicate]
  omega

/-- The packet is answered with the same bytes after any two histories of requests that the
worker can have served. -/
def SendsTheSame (users : DatabaseHandler) (fuel : Nat) (receiveBuffer : Buffer)
    (cb : ConnectionBuffer) (session : Session) (g : GlobalState)
    (env : Environment SysCall SysCall.Answer) : Prop :=
  ∀ tls tls', TlsHistory tls → TlsHistory tls' →
    sentIn env (processPacket users fuel receiveBuffer cb ⟨session, g, tls⟩) =
      sentIn env (processPacket users fuel receiveBuffer cb ⟨session, g, tls'⟩)

theorem LeavesGaps.tells {users : DatabaseHandler} {fuel : Nat} {receiveBuffer : Buffer}
    {cb : ConnectionBuffer} {session : Session} {g : GlobalState}
    {env : Environment SysCall SysCall.Answer}
    (h : LeavesGaps users env cb session g (getPacketType receiveBuffer)) :
    ¬ SendsTheSame users fuel receiveBuffer cb session g env := by
  intro same
  obtain ⟨i, hheader, hroom, shows⟩ := h.shows fuel receiveBuffer
  obtain ⟨tls, history, ones⟩ := exists_history_of_ones
  apply (shows Buffer.zero).ne (shows tls)
  · simp [ones i hheader hroom, Buffer.zero]
  · exact same _ _ .fresh history

/-- An answer tells nothing of what the worker served before exactly when it is not one of the
structures that its builder does not fill. The two histories of the worker's buffer are
arbitrary; session, global state and the answers of the operating system are the same in both. -/
theorem sends_the_same_iff (users : DatabaseHandler) (fuel : Nat) (receiveBuffer : Buffer)
    (cb : ConnectionBuffer) (session : Session) (g : GlobalState)
    (env : Environment SysCall SysCall.Answer) :
    SendsTheSame users fuel receiveBuffer cb session g env ↔
      ¬ LeavesGaps users env cb session g (getPacketType receiveBuffer) := by
  constructor
  · exact fun same hgaps => hgaps.tells same
  · intro hgaps tls tls' history history'
    apply dispatch_alike hgaps
    rw [history.version, history'.version]

/-- A compression library that fails. -/
def CompressionCall.failing : (call : CompressionCall) → call.Answer
  | .fileSize _ => (.error .filesystemError : Except FsError Nat)
  | .fread _ => FreadResult.error
  | .zstdCompressCCtx _ _ | .lz4CompressDefault _ => (none : Option (List UInt8))
  | .lzmaCode _ _ => (⟨.error, 0, []⟩ : LzmaStep)
  | .archiveWriteOpenFilename _ | .archiveWriteHeader _ _ | .archiveWriteData _
  | .archiveWriteClose | .fopen _ _ | .fwrite _ _ | .fclose _ | .zstdCreateCCtx | .gzdopen _
  | .gzsetparams _ | .gzwrite _ | .gzclose | .lzmaEasyEncoder _ | .zipOpen _ | .zipSourceFile _
  | .zipFileAdd _ | .zipSetFileCompression _ | .zipClose => false

/-- A system without files. -/
def SysCall.failing : (op : SysCall) → op.Answer
  | .send _ => ()
  | .containerSizes => ((0, 0, 0) : Nat × Nat × Nat)
  | .cpuUsage => (0 : UInt8)
  | .memoryUsage => ((0, 0) : UInt64 × UInt64)
  | .uptime => (0 : UInt64)
  | .remove _ | .mkdir _ => false
  | .removeAll _ => (.error .filesystemError : Except FsError Nat)
  | .pathExists _ | .isDirectory _ | .copyFile _ _ =>
      (.error .filesystemError : Except FsError Bool)
  | .openFile _ _ | .lseek _ _ | .write _ _ _ | .close _ => (-1 : Int)
  | .fstat _ => (none : Option Nat)
  | .read _ _ => (none : Option (List UInt8))
  | .weaklyCanonical _ => (.error .filesystemError : Except FsError FsPath)
  | .rename _ _ => (.error .filesystemError : Except FsError Unit)
  | .opendir _ => (none : Option (List Str))
  | .directoryIterator _ | .recursiveDirectoryIterator _ =>
      (.error .filesystemError : Except FsError (List DirEntry))
  | .compression call => call.failing

/-- The user `ab`, for whom no directory was made, lists the files. -/
theorem file_list_tells :
    ¬ SendsTheSame exampleUsers 0 (Buffer.zero.setHeader .reqFileList sizeofSamplePacket)
      ⟨0, []⟩ { Session.accepted 5 with id := ascii "ab" } .initial fun _ op => op.failing := by
  apply LeavesGaps.tells
  have asked : getPacketType (Buffer.zero.setHeader .reqFileList sizeofSamplePacket) =
      .reqFileList := by decide
  rw [asked]
  exact List.cons_ne_nil _ _

end ConcurrentTcp
