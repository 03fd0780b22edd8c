import ConcurrentTcp.Server.AdminPrivilege
import ConcurrentTcp.Server.Outcomes
import ConcurrentTcp.Server.TransferCalls

/-!
What the acknowledgement of an upload says.

The handlers of an upload look at no answer of `open` and `write`. So the last answer is
`RESP_FILE_TRANSFER_OK` in every run, and says that the file is stored exactly when `open`
succeeded and no `write` was short (`acknowledged_upload_iff`).
-/

namespace ConcurrentTcp

open Interaction

/-! ### Packets of one connection -/

/-- The packets are served one after the other. Between two of them other connections may
change the global state, and another worker has another response buffer. -/
inductive PacketsRun (users : DatabaseHandler) :
    Session → List (PacketType × ConnectionBuffer) → List ServerEvent → Session → Prop where
  | nil (session : Session) : PacketsRun users session [] [] session
  | cons {session session' : Session} {ty : PacketType} {cb : ConnectionBuffer}
      {packets : List (PacketType × ConnectionBuffer)} {first second : List ServerEvent}
      {t : HandlerState} (fuel : Nat) (receiveBuffer tls : Buffer) (g : GlobalState) :
      Exec (dispatch users fuel ty receiveBuffer cb ⟨session, g, tls⟩) first (.ok t) →
      PacketsRun users t.session packets second session' →
      PacketsRun users session ((ty, cb) :: packets) (first ++ second) session'

/-- An upload: a start, chunks and an end. -/
structure Upload where
  start : ConnectionBuffer
  chunks : List ConnectionBuffer
  last : ConnectionBuffer

namespace Upload

variable (upload : Upload)

/-- The packets that carry content. -/
def contents : List (PacketType × ConnectionBuffer) :=
  upload.chunks.map (fun cb => (PacketType.reqFileTransferChunk, cb)) ++
    [(.reqFileTransferEnd, upload.last)]

def packets : List (PacketType × ConnectionBuffer) :=
  (.reqFileTransferStart, upload.start) :: upload.contents

/-- What the client wants stored, packet by packet. -/
def payloads : List (List UInt8) :=
  (upload.chunks ++ [upload.last]).map fun cb => cb.frame.drop sizeofPacketHeader

/-- The start handler accepts the packet. -/
def Accepted (session : Session) : Prop :=
  session.id ≠ [] ∧
    ∃ name, PacketTransferFileStart.decodeFileName upload.start.buffer = some name ∧
      isValidFilename name = true

end Upload

/-! ### What was stored -/

/-- The answers of the calls that open a file to write. -/
def openAnswers (events : List ServerEvent) : List Int :=
  events.filterMap fun
    | ⟨.openFile _ true, file⟩ => some file
    | _ => none

/-- The answers of the calls that write. -/
def writeAnswers (events : List ServerEvent) : List Int :=
  events.filterMap fun
    | ⟨.write _ _ _, written⟩ => some written
    | _ => none

/-- What `file` received, call by call. -/
def writtenTo (file : Int) (events : List ServerEvent) : List (List UInt8) :=
  events.filterMap fun
    | ⟨.write fd data _, written⟩ => if fd = file then some (data.read 0 written.toNat) else none
    | _ => none

/-- The client is told that the upload is complete. -/
def Acknowledged (events : List ServerEvent) : Prop :=
  ∃ frame ∈ sends events, frame[1]? = some PacketType.respFileTransferOk.toByte

/-- The target was opened, and got every payload. -/
def Stored (payloads : List (List UInt8)) (events : List ServerEvent) : Prop :=
  ∃ file, openAnswers events = [file] ∧ 0 ≤ file ∧ writtenTo file events = payloads

@[simp] theorem openAnswers_append (first second : List ServerEvent) :
    openAnswers (first ++ second) = openAnswers first ++ openAnswers second :=
  List.filterMap_append

@[simp] theorem writeAnswers_append (first second : List ServerEvent) :
    writeAnswers (first ++ second) = writeAnswers first ++ writeAnswers second :=
  List.filterMap_append

@[simp] theorem writtenTo_append (file : Int) (first second : List ServerEvent) :
    writtenTo file (first ++ second) = writtenTo file first ++ writtenTo file second :=
  List.filterMap_append

theorem Acknowledged.append_left {first : List ServerEvent} (second : List ServerEvent)
    (h : Acknowledged first) : Acknowledged (first ++ second) := by
  obtain ⟨frame, hsent, hcommand⟩ := h
  exact ⟨frame, by simp [hsent], hcommand⟩

theorem Acknowledged.append_right (first : List ServerEvent) {second : List ServerEvent}
    (h : Acknowledged second) : Acknowledged (first ++ second) := by
  obtain ⟨frame, hsent, hcommand⟩ := h
  exact ⟨frame, by simp [hsent], hcommand⟩

/-! ### Runs -/

section Runs

variable {users : DatabaseHandler} {session session' : Session} {cb : ConnectionBuffer}
  {events : List ServerEvent}

/-- What was written of the payload is the payload when the length says so. -/
theorem read_fileData_iff (cb : ConnectionBuffer) (n : Nat) :
    (fileData cb).read 0 n = cb.frame.drop sizeofPacketHeader ↔
      n = (cb.frame.drop sizeofPacketHeader).length := by
  constructor
  · intro h
    rw [← h, Buffer.length_read]
  · rintro rfl
    apply List.ext_getElem?
    intro i
    by_cases hi : i < (cb.frame.drop sizeofPacketHeader).length
    · rw [Buffer.getElem?_read _ _ hi, List.getElem?_drop]
      rw [List.length_drop] at hi
      simp only [fileData, ConnectionBuffer.buffer, Nat.zero_add]
      rw [List.getD_eq_getElem _ _ (by omega), List.getElem?_eq_getElem (by omega)]
    · rw [List.getElem?_eq_none (by simpa using hi), List.getElem?_eq_none (by simpa using hi)]

/-- The packets with content, whatever `write` answers: nothing is opened, the writes go to
the descriptor of the session, and the end is acknowledged. -/
theorem contents_run {packets : List (PacketType × ConnectionBuffer)} (hid : session.id ≠ [])
    (hty : ∀ p ∈ packets, p.1 = .reqFileTransferChunk ∨ p.1 = .reqFileTransferEnd)
    (run : PacketsRun users session packets events session') :
    openAnswers events = [] ∧
      (writtenTo session.fd events =
          packets.map (fun p => p.2.frame.drop sizeofPacketHeader) ↔
        (writeAnswers events).map Int.toNat =
          packets.map (fun p => (p.2.frame.drop sizeofPacketHeader).length)) ∧
      ((∃ cb, (PacketType.reqFileTransferEnd, cb) ∈ packets) → Acknowledged events) := by
  induction run with
  | nil session => simp [openAnswers, writtenTo, writeAnswers]
  | @cons session session' ty cb packets first second t fuel receiveBuffer tls g exec later ih =>
      obtain ⟨hhere, hlater⟩ := List.forall_mem_cons.mp hty
      obtain ⟨answer, hwrite, hanswer⟩ : ∃ answer,
          Exec (writeFileData answer cb ⟨session, g, tls⟩) first (.ok t) ∧
            (ty = .reqFileTransferEnd → answer = .respFileTransferOk) := by
        rcases hhere with rfl | rfl
        · rw [dispatch_authorized hid rfl] at exec
          exact ⟨_, exec, nofun⟩
        · rw [dispatch_authorized hid rfl] at exec
          exact ⟨_, exec, fun _ => rfl⟩
      obtain ⟨written, rfl, hout⟩ := exec_writeFileData_iff.mp hwrite
      cases hout
      obtain ⟨hopened, hwritten, hacknowledged⟩ := ih hid hlater
      refine ⟨?_, ?_, ?_⟩
      · rw [openAnswers_append, hopened]
        rfl
      · have hfirst : writtenTo session.fd [⟨.write session.fd (fileData cb) (payloadLength cb),
            written⟩, ⟨.send (sampleFrame tls answer), ()⟩] =
              [(fileData cb).read 0 written.toNat] := by
          simp [writtenTo]
        have hanswers : writeAnswers [⟨.write session.fd (fileData cb) (payloadLength cb),
            written⟩, ⟨.send (sampleFrame tls answer), ()⟩] = [written] := rfl
        rw [writtenTo_append, writeAnswers_append, hfirst, hanswers]
        simp only [List.map_cons, List.singleton_append, List.cons.injEq]
        rw [read_fileData_iff]
        exact and_congr_right fun _ => hwritten
      · rintro ⟨last, hmem⟩
        rcases List.mem_cons.mp hmem with heq | hmem
        · cases heq
          obtain rfl := hanswer rfl
          exact .append_left second ⟨_, List.mem_cons_self, sampleFrame_command ..⟩
        · exact .append_right _ (hacknowledged ⟨last, hmem⟩)

/-- An acknowledged upload is stored exactly when the file was opened and each write took its
payload whole. This holds for every upload with an accepted name, and every result of open and
of each write; the acknowledgement looks at none of them. -/
theorem acknowledged_upload_iff {upload : Upload} (accepted : upload.Accepted session)
    (run : PacketsRun users session upload.packets events session') :
    (Acknowledged events → Stored upload.payloads events) ↔
      (∀ file ∈ openAnswers events, 0 ≤ file) ∧
        (writeAnswers events).map Int.toNat = upload.payloads.map List.length := by
  obtain ⟨hid, name, hname, hvalid⟩ := accepted
  cases run with
  | @cons _ _ _ _ _ first second t fuel receiveBuffer tls g exec later =>
      rw [dispatch_authorized hid rfl] at exec
      obtain ⟨file, rfl, hout⟩ := (exec_reqFileTransferStart_iff hname hvalid).mp exec
      cases hout
      have hty : ∀ p ∈ upload.contents,
          p.1 = .reqFileTransferChunk ∨ p.1 = .reqFileTransferEnd := by
        intro p hp
        simp only [Upload.contents, List.mem_append, List.mem_map, List.mem_singleton] at hp
        rcases hp with ⟨cb, -, rfl⟩ | rfl
        · exact .inl rfl
        · exact .inr rfl
      have hpayloads : upload.payloads =
          upload.contents.map fun p => p.2.frame.drop sizeofPacketHeader := by
        simp [Upload.payloads, Upload.contents]
      have hlast : ∃ cb, (PacketType.reqFileTransferEnd, cb) ∈ upload.contents :=
        ⟨upload.last, by simp [Upload.contents]⟩
      have holder : ({ session with fd := file } : Session).id ≠ [] := hid
      obtain ⟨hopened, hwritten, hacknowledged⟩ := contents_run holder hty later
      have told := hacknowledged hlast
      have hstored : Stored upload.payloads
          ([⟨.openFile (snprintfPath session name) true, file⟩,
            ⟨.send (sampleFrame tls .respContinue), ()⟩] ++ second) ↔
          0 ≤ file ∧ writtenTo file second = upload.payloads := by
        unfold Stored
        rw [openAnswers_append, hopened]
        constructor
        · rintro ⟨target, htarget, hpos, hpieces⟩
          cases htarget
          exact ⟨hpos, hpieces⟩
        · rintro ⟨hpos, hpieces⟩
          exact ⟨file, rfl, hpos, hpieces⟩
      rw [imp_iff_right (told.append_right _), hstored, openAnswers_append, writeAnswers_append,
        hopened, hpayloads, List.map_map]
      apply and_congr
      · exact (List.forall_mem_singleton (p := fun file : Int => 0 ≤ file)).symm
      · exact hwritten

end Runs

/-! ### One byte -/

/-- The file `a` with one byte. -/
def uploadOfOneByte : Upload where
  start := ⟨0, [1, PacketType.reqFileTransferStart.toByte, 22, 0] ++ List.replicate 16 0 ++
    ascii "a" ++ [0]⟩
  chunks := []
  last := ⟨0, [1, PacketType.reqFileTransferEnd.toByte, 5, 0, 7]⟩

def uploadSession : Session :=
  { Session.accepted 5 with id := ascii "1", currentDir := ascii "./tmp/1" }

theorem uploadOfOneByte_accepted : uploadOfOneByte.Accepted uploadSession :=
  ⟨by decide, ascii "a", by decide, by decide⟩

/-- The calls of this upload, for all answers. -/
theorem uploadOfOneByte_run (users : DatabaseHandler) (file written : Int) :
    ∃ events session', PacketsRun users uploadSession uploadOfOneByte.packets events session' ∧
      openAnswers events = [file] ∧ writeAnswers events = [written] ∧ Acknowledged events := by
  have start := (@exec_reqFileTransferStart_iff uploadOfOneByte.start
    ⟨uploadSession, .initial, Buffer.zero⟩ (ascii "a") _ _ (by decide) (by decide)).mpr
    ⟨file, rfl, rfl⟩
  have last : Exec (reqFileTransferEnd uploadOfOneByte.last
      ⟨{ uploadSession with fd := file }, .initial, Buffer.zero⟩) _ _ :=
    exec_writeFileData_iff.mpr ⟨written, rfl, rfl⟩
  have run : PacketsRun users uploadSession uploadOfOneByte.packets _ _ :=
    .cons 0 Buffer.zero Buffer.zero .initial start <|
    .cons 0 Buffer.zero Buffer.zero .initial last <| .nil _
  exact ⟨_, _, run, rfl, rfl, _, List.mem_cons_of_mem _ List.mem_cons_self,
    sampleFrame_command ..⟩

/-- It is stored when `open` and `write` succeed. -/
theorem uploadOfOneByte_stored :
    ∃ events session',
      PacketsRun exampleUsers uploadSession uploadOfOneByte.packets events session' ∧
      Acknowledged events ∧ Stored [[7]] events := by
  obtain ⟨events, session', run, hopen, hwrite, told⟩ := uploadOfOneByte_run exampleUsers 6 1
  refine ⟨events, session', run, told, ?_⟩
  refine (acknowledged_upload_iff uploadOfOneByte_accepted run).mpr ⟨?_, ?_⟩ told
  · simp [hopen]
  · rw [hwrite]
    rfl

/-- When the target cannot be opened, nothing is stored, and the end is acknowledged all the
same. -/
theorem uploadOfOneByte_lost :
    ∃ events session',
      PacketsRun exampleUsers uploadSession uploadOfOneByte.packets events session' ∧
      ¬ (Acknowledged events → Stored uploadOfOneByte.payloads events) := by
  obtain ⟨events, session', run, hopen, -, told⟩ := uploadOfOneByte_run exampleUsers (-1) (-1)
  refine ⟨events, session', run, fun stored => ?_⟩
  obtain ⟨file, hfile, hpos, -⟩ := stored told
  rw [hopen] at hfile
  cases hfile
  exact absurd hpos (by decide)

end ConcurrentTcp
