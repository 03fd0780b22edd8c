import ConcurrentTcp.Client.Utils
import ConcurrentTcp.Server.Returns

/-!
A client in lockstep with the server.

The client of connection `c` sends one request at a time and reads one frame after
each. Between its requests the server accepts, serves and destroys any other
connections. Sends and receives do not fail, and `read` stores at most as many bytes
as it is asked for.

`lengths_agree_iff` is about the length of frames, which a response states in its
header and its handler states again to `send`.
-/

namespace ConcurrentTcp

open Interaction Transition

/-- The calls a step made. -/
def RequestLabel.events : RequestLabel → List ServerEvent
  | .accept _ _ => []
  | .packet _ _ _ _ _ events _ => events
  | .disconnect _ events _ => events

/-- `read` returns at most what it is asked for. -/
def ReadBounded : ServerEvent → Prop
  | ⟨.read _ count, some bytes⟩ => bytes.length ≤ count
  | _ => True

/-- The server, and what the client has not read yet. -/
structure LockstepState extends RequestState where
  unread : List UInt8

def LockstepState.initial : LockstepState := { RequestState.initial with unread := [] }

/-- `exchange` is a request of the client with the frame it reads. -/
inductive LockstepLabel where
  | other (l : RequestLabel)
  | exchange (l : RequestLabel) (received : List UInt8)

def LockstepLabel.request : LockstepLabel → RequestLabel
  | .other l => l
  | .exchange l _ => l

/-- The requests that have an answer. The client issues all of them but the file
close. -/
def PacketType.isAnswered (ty : PacketType) : Bool := ty.isRequest && ty != .reqCrcVerify

/-- The client of connection `c` and the server. -/
inductive LockstepStep (users : DatabaseHandler) (c : ConnId) :
    LockstepState → LockstepLabel → LockstepState → Prop where
  /-- The stream of a new connection is empty. -/
  | accept {w : LockstepState} {d : ConnId} {socketFd : Int} {v : RequestState} :
      RequestStep users w.toRequestState (.accept d socketFd) v →
      LockstepStep users c w (.other (.accept d socketFd))
        { v with unread := if d = c then [] else w.unread }
  | disconnect {w : LockstepState} {d : ConnId} {events : List ServerEvent}
      {out : Except Fault GlobalState} {v : RequestState} :
      RequestStep users w.toRequestState (.disconnect d events out) v →
      LockstepStep users c w (.other (.disconnect d events out)) { v with unread := w.unread }
  | packet {w : LockstepState} {d : ConnId} {ty : PacketType} {receiveBuffer tls : Buffer}
      {cb : ConnectionBuffer} {events : List ServerEvent} {out : Except Fault HandlerState}
      {v : RequestState} : d ≠ c → (∀ e ∈ events, ReadBounded e) →
      RequestStep users w.toRequestState (.packet d ty receiveBuffer cb tls events out) v →
      LockstepStep users c w (.other (.packet d ty receiveBuffer cb tls events out))
        { v with unread := w.unread }
  | exchange {w : LockstepState} {ty : PacketType} {receiveBuffer tls : Buffer}
      {cb : ConnectionBuffer} {events : List ServerEvent} {out : Except Fault HandlerState}
      {v : RequestState} {received rest : List UInt8} :
      ty.isAnswered = true → (∀ e ∈ events, ReadBounded e) →
      RequestStep users w.toRequestState (.packet c ty receiveBuffer cb tls events out) v →
      recvFromServer (w.unread ++ (sends events).flatten) = (received, rest) →
      LockstepStep users c w (.exchange (.packet c ty receiveBuffer cb tls events out) received)
        { v with unread := rest }

def lockstepSystem (users : DatabaseHandler) (c : ConnId) :
    System LockstepState LockstepLabel where
  init := fun w => w = .initial
  step := fun w l v => w.terminated = false ∧ LockstepStep users c w l v

/-! ### The lengths of frames -/

/-- Each send has the length that its header says. -/
def SendsAgree (events : List ServerEvent) : Prop :=
  ∀ frame ∈ sends events, declaredSize frame = frame.length

/-- The handler that answers with the settings is about to run. -/
def AsksForSettings (ty : PacketType) (session : Session) : Prop :=
  ty = .reqGetSettings ∧ session.id ≠ [] ∧ session.isAdmin = true

/-- `lseek` did not go where it should. -/
def seekFailed : ServerEvent → Bool
  | ⟨.lseek _ offset, (position : Int)⟩ => position != offset
  | _ => false

section Lengths

variable {users : DatabaseHandler} {fuel : Nat} {receiveBuffer : Buffer} {cb : ConnectionBuffer}
  {ty : PacketType} {s : HandlerState} {events : List ServerEvent}
  {out : Except Fault HandlerState}

theorem OneFrame.sendsAgree (h : OneFrame (sends events)) : SendsAgree events := by
  obtain ⟨frame, hframes, hsize⟩ := h
  intro other hmem
  rw [hframes, List.mem_singleton] at hmem
  rw [hmem, hsize]

theorem sendsAgree_of_no_sends (h : sends events = []) : SendsAgree events := by
  intro frame hmem
  rw [h] at hmem
  cases hmem

/-- What one request sends. -/
inductive RequestSends (ty : PacketType) (session : Session) (events : List ServerEvent)
    (out : Except Fault HandlerState) : Prop where
  /-- The settings, followed by what else is in the response buffer. -/
  | settings (frame : List UInt8) : AsksForSettings ty session → sends events = [frame] →
      declaredSize frame = sizeofGetSettingsPacket → frame.length = sizeofPacketFileList →
      RequestSends ty session events out
  /-- The error answer of the download, twice. -/
  | twice (frame : List UInt8) : ty = .reqFileDownloadChunk → (∃ e ∈ events, seekFailed e = true) →
      sends events = [frame, frame] → declaredSize frame = frame.length →
      frame.length = sizeofSamplePacket → RequestSends ty session events out
  | nothing : ¬ AsksForSettings ty session → ¬ (∃ e ∈ events, seekFailed e = true) ∨
      ty ≠ .reqFileDownloadChunk → sends events = [] → (ty.isAnswered = true → ∀ t, out ≠ .ok t) →
      RequestSends ty session events out
  | once (t : HandlerState) : ¬ AsksForSettings ty session → ¬ (∃ e ∈ events, seekFailed e = true) ∨
      ty ≠ .reqFileDownloadChunk → out = .ok t → OneFrame (sends events) →
      RequestSends ty session events out

/-- The settings are six bytes by their header. -/
theorem declaredSize_settings (g : GlobalState) (tls : Buffer) :
    declaredSize ((createSettingsRespPacket g tls).read 0 sizeofPacketFileList) =
      sizeofGetSettingsPacket := by
  rw [declaredSize_read _ (by decide)]
  simp [createSettingsRespPacket, sizeofGetSettingsPacket]

theorem requestSends_getSettings (hid : s.session.id ≠ [])
    (run : Exec (reqGetSettings s) events out) :
    RequestSends .reqGetSettings s.session events out := by
  unfold reqGetSettings at run
  cases hadmin : s.session.isAdmin with
  | false =>
      rw [hadmin] at run
      obtain ⟨rfl, rfl⟩ := exec_sendSampleResp_iff.mp run
      exact .once _ (by simp [AsksForSettings, hadmin]) (.inr (by simp)) rfl
        (oneFrame_sampleFrame _ _)
  | true =>
      rw [hadmin] at run
      obtain ⟨rfl, rfl⟩ := exec_respond_iff.mp run
      exact .settings _ ⟨rfl, hid, hadmin⟩ rfl (declaredSize_settings _ _) (Buffer.length_read ..)

theorem requestSends_fileDownloadChunk (bounded : ∀ e ∈ events, ReadBounded e)
    (run : Exec (reqFileDownloadChunk cb s) events out) :
    RequestSends .reqFileDownloadChunk s.session events out := by
  obtain ⟨t, rfl, calls⟩ := exec_reqFileDownloadChunk_iff.mp run
  cases calls with
  | notThere position closed hposition =>
      obtain ⟨frame, hframe, hsize⟩ := oneFrame_sampleFrame s.tls .respIoError
      cases hframe
      refine .twice _ rfl ⟨_, List.mem_cons_self, ?_⟩ rfl hsize (Buffer.length_read ..)
      simpa [seekFailed] using hposition
  | answered data =>
      refine .once _ (by simp [AsksForSettings]) (.inl ?_) rfl ?_
      · simp [seekFailed]
      · apply chunkResponse_oneFrame
        rintro bytes rfl
        have answer := bounded ⟨.read s.session.downloadFd maxChunkSize, some bytes⟩ (by simp)
        exact answer

/-- What a dispatched request sends. -/
theorem dispatch_sends (bounded : ∀ e ∈ events, ReadBounded e)
    (run : Exec (dispatch users fuel ty receiveBuffer cb s) events out) :
    RequestSends ty s.session events out := by
  rcases dispatch_cases run with
    ⟨-, hid, refused⟩ | ⟨-, hempty, rfl, rfl⟩ | ⟨handler, hopen, hhandler, run⟩
  · obtain ⟨rfl, rfl⟩ := exec_sendSampleResp_iff.mp refused
    refine .once _ (by simp [AsksForSettings, hid]) (.inl (by simp [seekFailed])) rfl ?_
    exact oneFrame_sampleFrame _ _
  · refine .nothing ?_ (.inl (by simp)) rfl (by simp)
    rintro ⟨rfl, -⟩
    cases hempty
  by_cases hsettings : ty = .reqGetSettings
  · subst hsettings
    cases hhandler
    exact requestSends_getSettings (by simpa [PacketType.needsNoLogin] using hopen) run
  by_cases hchunk : ty = .reqFileDownloadChunk
  · subst hchunk
    cases hhandler
    exact requestSends_fileDownloadChunk bounded run
  have hasks : ¬ AsksForSettings ty s.session := fun asks => hsettings asks.1
  by_cases hcrc : ty = .reqCrcVerify
  · subst hcrc
    cases hhandler
    obtain ⟨rfl, rfl⟩ := Exec.ret_iff.mp run
    exact .nothing hasks (.inr hchunk) rfl fun hanswered => by cases hanswered
  have honce : ty.answersOnce = true := by
    cases ty <;> first | rfl | contradiction
  have serves : Serves fuel True _ (handler s) :=
    handlers_serve hhandler (.inr trivial) fun _ => trivial
  have here := serves events out run
  cases out with
  | ok t => exact .once t hasks (.inr hchunk) rfl (here.2 honce)
  | error e => exact .nothing hasks (.inr hchunk) here.1 fun _ t => by simp

end Lengths

/-! ### Runs -/

/-- After the step, both sides agree on where the next frame begins. -/
def LengthsAgree (m : Move LockstepState LockstepLabel) : Prop :=
  SendsAgree m.label.request.events ∧ m.post.unread = []

/-- No admin is answered with the settings. -/
def NoSettings (w : RequestState) : RequestLabel → Prop
  | .packet c ty _ _ _ _ _ => ∀ session, w.live c = some session → ¬ AsksForSettings ty session
  | _ => True

/-- The client's downloads find their chunks. -/
def SeeksSucceed : LockstepLabel → Prop
  | .exchange (.packet _ ty _ _ _ events _) _ =>
      ty = .reqFileDownloadChunk → ¬ ∃ e ∈ events, seekFailed e = true
  | _ => True

section Runs

variable {users : DatabaseHandler} {c : ConnId}

theorem sends_destroyConnection {session : Session} {g : GlobalState} {events : List ServerEvent}
    {out : Except Fault GlobalState} (run : Exec (destroyConnection session g) events out) :
    sends events = [] := by
  have proceeds : Judged (Proceeds 0 True) (destroyConnection session g) := by
    apply proceeds_sys rfl
    intro _
    apply proceeds_sys rfl
    intro _
    apply proceeds_bind (proceeds_orUndefined (.inr trivial))
    intro dirPath
    apply proceeds_sys rfl
    exact fun _ => proceeds_ret _
  exact (proceeds events out run).1

/-- A packet of any connection. -/
theorem RequestStep.sendsAgree_iff {w v : RequestState} {d : ConnId} {ty : PacketType}
    {receiveBuffer tls : Buffer} {cb : ConnectionBuffer} {events : List ServerEvent}
    {out : Except Fault HandlerState} (bounded : ∀ e ∈ events, ReadBounded e)
    (step : RequestStep users w (.packet d ty receiveBuffer cb tls events out) v) :
    SendsAgree events ↔ NoSettings w (.packet d ty receiveBuffer cb tls events out) := by
  obtain ⟨fuel, session, hlive, run, -, -⟩ := step.packet_inv
  simp only [NoSettings, hlive, Option.some.injEq, forall_eq']
  cases dispatch_sends bounded run with
  | settings frame asks hsends hsize hlength =>
      apply iff_of_false
      · intro agree
        have same := agree frame (by simp [hsends])
        rw [hsize, hlength] at same
        cases same
      · exact fun none => none asks
  | twice frame hty _ hsends hsize _ =>
      apply iff_of_true
      · simpa [SendsAgree, hsends] using hsize
      · rintro ⟨hsettings, -⟩
        rw [hty] at hsettings
        cases hsettings
  | nothing asks _ hsends _ => exact iff_of_true (sendsAgree_of_no_sends hsends) asks
  | once t asks _ _ one => exact iff_of_true one.sendsAgree asks

/-- When the frames have the length they say, the client is left with an unread one
exactly when the error answer came twice. -/
theorem exchange_unread_iff {w v : RequestState} {ty : PacketType} {receiveBuffer tls : Buffer}
    {cb : ConnectionBuffer} {events : List ServerEvent} {out : Except Fault HandlerState}
    {received rest : List UInt8} (bounded : ∀ e ∈ events, ReadBounded e)
    (step : RequestStep users w (.packet c ty receiveBuffer cb tls events out) v)
    (hrecv : recvFromServer (sends events).flatten = (received, rest))
    (agree : SendsAgree events) :
    rest = [] ↔ (ty = .reqFileDownloadChunk → ¬ ∃ e ∈ events, seekFailed e = true) := by
  obtain ⟨fuel, session, hlive, run, -, -⟩ := step.packet_inv
  cases dispatch_sends bounded run with
  | settings frame asks hsends hsize hlength =>
      have same := agree frame (by simp [hsends])
      rw [hsize, hlength] at same
      cases same
  | twice frame hty failed hsends hsize hlength =>
      apply iff_of_false
      · have hfour : 4 ≤ frame.length := by rw [hlength, sizeofSamplePacket]
        have hstream : declaredSize (frame ++ frame) = sizeofSamplePacket := by
          rw [declaredSize_append hfour, hsize, hlength]
        rw [hsends] at hrecv
        have hlong : max sizeofPacketHeader (declaredSize (frame ++ frame)) <
            (frame ++ frame).length := by
          simp [hstream, hlength, sizeofSamplePacket, sizeofPacketHeader]
        have left := recvFromServer_rest hlong
        simp only [List.flatten_cons, List.flatten_nil, List.append_nil] at hrecv
        rw [hrecv] at left
        exact left
      · exact fun none => none hty failed
  | nothing _ found hsends _ =>
      rw [hsends] at hrecv
      cases hrecv
      exact iff_of_true rfl fun hty => found.resolve_right (not_not.mpr hty)
  | once t _ found _ one =>
      obtain ⟨frame, hsends, hsize⟩ := one
      rw [hsends] at hrecv
      simp only [List.flatten_cons, List.flatten_nil, List.append_nil,
        recvFromServer_frame hsize, Prod.mk.injEq] at hrecv
      exact iff_of_true hrecv.2.symm fun hty => found.resolve_right (not_not.mpr hty)

/-- With nothing unread before, a step keeps the agreement exactly when it does not
send the settings and its seeks succeed. -/
theorem LockstepStep.lengthsAgree_iff {w v : LockstepState} {l : LockstepLabel}
    (now : w.unread = []) (step : LockstepStep users c w l v) :
    LengthsAgree ⟨w, l, v⟩ ↔ NoSettings w.toRequestState l.request ∧ SeeksSucceed l := by
  cases step with
  | accept accepted =>
      apply iff_of_true
      · refine ⟨sendsAgree_of_no_sends rfl, ?_⟩
        simp [now]
      · exact ⟨trivial, trivial⟩
  | disconnect disconnected =>
      apply iff_of_true
      · cases disconnected with
        | disconnect _ run => exact ⟨sendsAgree_of_no_sends (sends_destroyConnection run), now⟩
      · exact ⟨trivial, trivial⟩
  | packet _ bounded served =>
      have agree := served.sendsAgree_iff bounded
      exact and_congr agree (iff_of_true now trivial)
  | exchange _ bounded served hrecv =>
      rw [now, List.nil_append] at hrecv
      have lengths := served.sendsAgree_iff bounded
      constructor
      · rintro ⟨agree, read⟩
        exact ⟨lengths.mp agree, (exchange_unread_iff bounded served hrecv agree).mp read⟩
      · rintro ⟨none, found⟩
        have agree := lengths.mpr none
        exact ⟨agree, (exchange_unread_iff bounded served hrecv agree).mpr found⟩

end Runs

/-- In every lockstep run, all frames have the length that their header says and the
client has read all of them before its next request, exactly when no admin asks for
the settings and `lseek` finds each chunk the client asks for. -/
theorem lengths_agree_iff {users : DatabaseHandler} {c : ConnId} {w : LockstepState}
    {moves : List (Move LockstepState LockstepLabel)}
    (run : Run (lockstepSystem users c) .initial moves w) :
    (∀ m ∈ moves, LengthsAgree m) ↔
      ∀ m ∈ moves, NoSettings m.pre.toRequestState m.label.request ∧ SeeksSucceed m.label := by
  have exact_step : ∀ m : Move LockstepState LockstepLabel, m.pre.unread = [] →
      (lockstepSystem users c).step m.pre m.label m.post →
      (LengthsAgree m ↔
        NoSettings m.pre.toRequestState m.label.request ∧ SeeksSucceed m.label) :=
    fun m now step => step.2.lengthsAgree_iff now
  have keeps : ∀ m : Move LockstepState LockstepLabel, m.pre.unread = [] →
      (lockstepSystem users c).step m.pre m.label m.post → LengthsAgree m → m.post.unread = [] :=
    fun _ _ _ agree => agree.2
  exact run.moves_iff (I := fun w => w.unread = []) exact_step keeps rfl

/-- A login makes a directory and answers. -/
theorem readBounded_reqLogin (users : DatabaseHandler) (cb : ConnectionBuffer) (s : HandlerState) :
    Contract (fun _ => True) ReadBounded (fun _ => True) (reqLogin users cb s) := by
  unfold reqLogin
  cases PacketLogin.decode cb.buffer with
  | none => trivial
  | some inPacket =>
      simp only [orUndefined, Prog.ret_bind]
      split
      · intro _ _
        refine ⟨trivial, ?_⟩
        split
        · split
          · exact fun _ _ => ⟨trivial, trivial⟩
          · exact fun _ _ => ⟨trivial, trivial⟩
        · exact fun _ _ => ⟨trivial, trivial⟩
      · exact fun _ _ => ⟨trivial, trivial⟩

/-- The client has connected. -/
def LockstepState.connected : LockstepState :=
  { RequestState.initial.next 0 (.ok (some (.accepted 5), .initial)) with unread := [] }

/-- The client connects and logs in as root. -/
theorem exists_rootLogin_lockstep :
    ∃ moves w, Run (lockstepSystem exampleUsers 0) .initial moves w ∧ w.terminated = false ∧
      w.live 0 = some rootSession ∧ w.unread = [] ∧ moves.length = 2 ∧
      ∀ m ∈ moves, LengthsAgree m := by
  have accepted : LockstepStep exampleUsers 0 .initial (.other (.accept 0 5)) .connected :=
    .accept (.accept rfl)
  obtain ⟨events, t, login, hsession, -⟩ := exec_reqLogin exampleUsers decode_rootLogin
    ⟨.accepted 5, .initial, Buffer.zero⟩
  rw [afterLogin_root.1] at hsession
  have bounded := ((readBounded_reqLogin _ _ _).sound login fun _ _ => trivial).1
  have served : RequestStep exampleUsers LockstepState.connected.toRequestState
      (.packet 0 .reqLogin Buffer.zero (loginPacket 0 (ascii "root") (ascii "a")) Buffer.zero
        events (.ok t)) _ := .packet 0 (RequestState.live_next_self ..) login (by simp)
  have loggedIn : LockstepStep exampleUsers 0 .connected _ _ := .exchange rfl bounded served rfl
  have none : NoSettings LockstepState.connected.toRequestState (.packet 0 .reqLogin Buffer.zero
      (loginPacket 0 (ascii "root") (ascii "a")) Buffer.zero events (.ok t)) := by
    rintro session - ⟨⟨⟩, -⟩
  have connects := (accepted.lengthsAgree_iff rfl).mpr ⟨trivial, trivial⟩
  have logsIn := (loggedIn.lengthsAgree_iff rfl).mpr ⟨none, fun hty => by cases hty⟩
  have run : Run (lockstepSystem exampleUsers 0) .initial _ _ :=
    .cons ⟨rfl, accepted⟩ (.cons ⟨rfl, loggedIn⟩ (.nil _))
  refine ⟨_, _, run, rfl, ?_, logsIn.2, rfl, by simpa using ⟨connects, logsIn⟩⟩
  rw [← hsession]
  exact RequestState.live_next_self ..

/-- The shipped client logs in as root and asks for the settings. -/
theorem settings_left_unread :
    ∃ moves w, Run (lockstepSystem exampleUsers 0) .initial moves w ∧
      (∃ m ∈ moves, ¬ SendsAgree m.label.request.events) ∧ w.unread ≠ [] := by
  obtain ⟨moves, w, login, running, hlive, hunread, -, -⟩ := exists_rootLogin_lockstep
  have asked : RequestStep exampleUsers w.toRequestState
      (.packet 0 .reqGetSettings Buffer.zero ⟨0, []⟩ Buffer.zero _ _) _ :=
    .packet 0 hlive (exec_respond ⟨rootSession, w.g, Buffer.zero⟩ _ _) (by simp)
  have answered : LockstepStep exampleUsers 0 w _ _ :=
    .exchange rfl (by simp [ReadBounded]) asked rfl
  refine ⟨_, _, login.append (.one ⟨running, answered⟩),
    ⟨_, List.mem_append_right _ List.mem_cons_self, fun agree => ?_⟩, ?_⟩
  · have none := (asked.sendsAgree_iff (by simp [ReadBounded])).mp agree
    exact none _ hlive ⟨rfl, by decide, rfl⟩
  · rw [hunread]
    apply recvFromServer_rest
    have hsize := declaredSize_settings w.g Buffer.zero
    simp [sends, sent?, sizeofPacketHeader, sizeofPacketFileList] at hsize ⊢
    rw [hsize]
    decide

/-- The root of the example users logs in. -/
theorem lengths_agree_rootLogin :
    ∃ moves w, Run (lockstepSystem exampleUsers 0) .initial moves w ∧ moves.length = 2 ∧
      ∀ m ∈ moves, NoSettings m.pre.toRequestState m.label.request ∧ SeeksSucceed m.label := by
  obtain ⟨moves, w, login, -, -, -, hlength, agree⟩ := exists_rootLogin_lockstep
  exact ⟨moves, w, login, hlength, (lengths_agree_iff login).mp agree⟩

end ConcurrentTcp
