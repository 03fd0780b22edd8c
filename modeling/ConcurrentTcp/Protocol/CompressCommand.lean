import ConcurrentTcp.Client.CompressLine
import ConcurrentTcp.Protocol.Answers
import ConcurrentTcp.Server.ArchiveContent

/-!
The compress command, from the line to the archive and back.

The words of a line become a packet (`parse_compress_typed`), and the packet an archive
(`archive_holds_files`). `compress_command` joins the two: when every call succeeds, the archive
holds the files whose names were typed, in this order, and the client is told so; when one of
them is not there, the client is told, and no file has changed.
-/

namespace ConcurrentTcp

open Interaction

/-! ### The files of a request -/

/-- The regular files below the working directory. -/
def Session.regularFiles (session : Session) (entries : List DirEntry) : List Str :=
  (entries.filter (·.matching)).map fun e => session.currentDir ++ slashed (e.names.map (·.name))

/-- The files that a request means, or `none` when one that it names is not there. What is below
the working directory is what the operating system told. -/
inductive CompressRequest.Selects {Place : Type} (request : CompressRequest)
    (locate : Str → Place) (session : Session) (tree : FileTree Place)
    (events : List ServerEvent) : Option (List Str) → Prop where
  | all (entries : List DirEntry) : request.all = true →
      ⟨.recursiveDirectoryIterator (session.currentDir ++ [slash]), Except.ok entries⟩ ∈ events →
      request.Selects locate session tree events (some (session.regularFiles entries))
  | named : request.all = false →
      (∀ path ∈ request.paths, tree (locate (session.path path)) ≠ none) →
      request.Selects locate session tree events (some (request.paths.map session.path))
  | missing (path : Str) : request.all = false → path ∈ request.paths →
      tree (locate (session.path path)) = none →
      request.Selects locate session tree events none

theorem CompressRequest.Selects.mono {Place : Type} {request : CompressRequest}
    {locate : Str → Place} {session : Session} {tree : FileTree Place}
    {events events' : List ServerEvent} {listed : Option (List Str)}
    (h : request.Selects locate session tree events listed) (hsub : events ⊆ events') :
    request.Selects locate session tree events' listed := by
  cases h with
  | all entries hall hmem => exact .all entries hall (hsub hmem)
  | named hall there => exact .named hall there
  | missing path hall hpath missing => exact .missing path hall hpath missing

section Files

variable {Place : Type} [DecidableEq Place] {naming : Naming Place} {w : ArchiveState Place}
  {session : Session} {p : Buffer} {request : CompressRequest}

/-- The slots of a packet that arrived whole. -/
theorem CompressRequest.Received.slots (received : request.Received p) :
    List.Forall₂ (fun i name => PacketCompress.fileName p i = some name)
      (List.range (PacketCompress.fileCount p)) request.paths := by
  refine List.forall₂_iff_get.mpr ⟨(List.length_range ..).trans received.count, ?_⟩
  intro i _ hi
  simp only [List.get_eq_getElem, List.getElem_range]
  exact received.names i _ (List.getElem?_eq_getElem hi)

/-- The calls of the loop when every name is there. -/
theorem exec_listedNames {is : List Nat} {names : List Str} (session : Session)
    (slots : List.Forall₂ (fun i name => PacketCompress.fileName p i = some name) is names)
    (files : List Str) :
    Exec (listedFiles session p files is)
      (names.map fun name => ⟨.pathExists (session.path name), Except.ok true⟩)
      (.ok (some (files ++ names.map session.path))) := by
  induction slots generalizing files with
  | nil =>
      rw [List.map_nil, List.map_nil, List.append_nil]
      exact .ret _
  | @cons i name is names hname _ ih =>
      have later := ih (files ++ [session.path name])
      rw [List.append_assoc] at later
      unfold listedFiles
      rw [hname]
      exact .call _ later

/-- The loop stops at the first name that is not there. -/
theorem ensures_listedNames {is : List Nat} {names : List Str}
    (slots : List.Forall₂ (fun i name => PacketCompress.fileName p i = some name) is names)
    (files : List Str) :
    Ensures (ArchiveStep naming.locate) (listedFiles session p files is) w fun listed v => v = w ∧
      ((listed = some (files ++ names.map session.path) ∧
          ∀ name ∈ names, w.files (naming.locate (session.path name)) ≠ none) ∨
        listed = none ∧ ∃ name ∈ names, w.files (naming.locate (session.path name)) = none) := by
  induction slots generalizing files with
  | nil => exact .ret ⟨rfl, .inl ⟨by rw [List.map_nil, List.append_nil], List.forall_mem_nil _⟩⟩
  | @cons i name is names hname _ ih =>
      unfold listedFiles
      rw [hname]
      refine ensures_sys fun ans t step => ?_
      cases step
      cases hfile : w.files (naming.locate (session.path name)) with
      | none => exact .ret ⟨rfl, .inr ⟨rfl, name, List.mem_cons_self, hfile⟩⟩
      | some entry =>
          refine (ih (files ++ [session.path name])).mono ?_
          rintro listed v ⟨same, ⟨hlisted, there⟩ | ⟨hlisted, other, hmem, hother⟩⟩
          · refine ⟨same, .inl ⟨?_, List.forall_mem_cons.mpr ⟨?_, there⟩⟩⟩
            · rw [hlisted, List.append_assoc]
              rfl
            · rw [hfile]
              exact Option.some_ne_none entry
          · exact ⟨same, .inr ⟨hlisted, other, List.mem_cons_of_mem _ hmem, hother⟩⟩

/-- The handler looks for what the request means. -/
theorem CompressRequest.Received.selects {before : List ServerEvent} {listed : Option (List Str)}
    {v : ArchiveState Place} (received : request.Received p)
    (looked : Exec (filesToCompress session p) before (.ok listed))
    (follows : Evolves (ArchiveStep naming.locate) w before v) :
    v = w ∧ request.Selects naming.locate session w.files before listed := by
  refine ⟨ensures_filesToCompress before listed v looked follows, ?_⟩
  unfold filesToCompress at looked
  rw [received.all] at looked
  cases hall : request.all with
  | true =>
      rw [hall, if_pos rfl] at looked
      obtain ⟨ans, rest, rfl, tail⟩ := Exec.call_iff.mp looked
      obtain ⟨t, step, later⟩ := follows.cons_inv
      cases step with
      | listed _ entries =>
      obtain ⟨-, hlisted⟩ := Exec.ret_iff.mp tail
      cases hlisted
      exact .all entries hall List.mem_cons_self
  | false =>
      rw [hall, if_neg Bool.false_ne_true] at looked
      obtain ⟨-, ⟨rfl, there⟩ | ⟨rfl, name, hname, missing⟩⟩ :=
        ensures_listedNames received.slots [] before listed v looked follows
      · exact .named hall there
      · exact .missing name hall hname missing

end Files

/-! ### The command -/

/-- What becomes of a request that was received, and what the client is told. -/
inductive CompressRequest.Archived {Place : Type} (request : CompressRequest)
    (locate : Str → Place) (session : Session) (tree : FileTree Place) (v : ArchiveState Place) :
    Option (List Str) → PacketType → Prop where
  | missing : v.files = tree → request.Archived locate session tree v none .respIoError
  | archived (files : List Str) :
      ArchiveHolds locate request.format files (session.path request.archive) (.start tree) v →
      request.Archived locate session tree v (some files) .respCompress

/-- Unless the tar file is to be one of the files: the client is told once, and it is so. -/
def CompressRequest.Handled {Place : Type} (request : CompressRequest) (locate : Str → Place)
    (session : Session) (tree : FileTree Place) (events : List ServerEvent)
    (v : ArchiveState Place) : Prop :=
  ∃ listed, request.Selects locate session tree events listed ∧
    ((∀ files, listed = some files →
        TarApart locate request.format files (session.path request.archive)) →
      ∃ answer frame, sends events = [frame] ∧ ReportedAs frame (.said answer) ∧
        request.Archived locate session tree v listed answer)

theorem reportedAs_sample (tls : Buffer) {answer : PacketType} (h : answer.isSaid = true) :
    ReportedAs (sampleFrame tls answer) (.said answer) :=
  (conveys_sample tls h).reportedAs (by decide) (Nat.le_refl _) (Buffer.totalSize_setHeader ..)

section Command

variable {Place : Type} [DecidableEq Place] {naming : Naming Place} {request : CompressRequest}
  {fuel : Nat} {cb : ConnectionBuffer} {s s' : HandlerState} {tree : FileTree Place}
  {v : ArchiveState Place} {events : List ServerEvent}

theorem CompressRequest.Received.handled (received : request.Received cb.buffer)
    (run : Exec (reqCompress fuel cb s) events (.ok s'))
    (follows : Evolves (ArchiveStep naming.locate) (.start tree) events v) :
    request.Handled naming.locate s.session tree events v := by
  rw [reqCompress_eq received.archive, received.format] at run
  obtain ⟨listed, before, after, looked, rest, rfl⟩ := run.bind_inv
  obtain ⟨u, first, second⟩ := follows.append_inv
  obtain ⟨rfl, selects⟩ := received.selects looked first
  refine ⟨listed, selects.mono (List.subset_append_left ..), fun hapart => ?_⟩
  rw [sends_append, sends_filesToCompress looked, List.nil_append]
  cases listed with
  | none =>
      obtain ⟨sent, rfl⟩ := answer_evolves rest second
      exact ⟨.respIoError, _, sent, reportedAs_sample s.tls rfl, .missing rfl⟩
  | some files =>
      obtain ⟨sent, holds⟩ :=
        answerCompress_evolves ⟨rfl, rfl⟩ (hapart files rfl) rest second
      exact ⟨.respCompress, _, sent, reportedAs_sample s.tls rfl, .archived files holds⟩

/-- The packet of a line that fits. -/
theorem parse_compress_received (junk : Nat → Nat → Buffer)
    (readEntireFile : Str → Option (List UInt8)) {input : Buffer} {line : Str}
    (h : HoldsLine input line) (typed : request.Typed line) (fits : request.Fits) :
    ∃ packet, parseCommandToPackets junk readEntireFile input = .ok (some [packet]) ∧
      ∀ c, request.Received (ConnectionBuffer.buffer ⟨c, packet.frame⟩) := by
  obtain ⟨harchive, hzero⟩ := typed.noNul h.noNul
  have arrives (c : ConnId) : request.Decodes c ((PacketController.createCompressPacket (junk 0 0)
      request.format request.level request.all request.paths request.archive).map
        fun packet => some [packet]) :=
    (decodes_iff_fits c typed.short harchive hzero).mpr fits
  rw [parse_compress_typed h typed]
  cases hmade : PacketController.createCompressPacket (junk 0 0) request.format request.level
      request.all request.paths request.archive with
  | error fault =>
      rw [hmade] at arrives
      rcases arrives 0 with hrefused | ⟨packet, hpacket, -⟩
      · cases hrefused
      · cases hpacket
  | ok packet =>
      rw [hmade] at arrives
      refine ⟨packet, rfl, fun c => ?_⟩
      rcases arrives c with hrefused | ⟨sent, hsent, received⟩
      · cases hrefused
      · cases hsent
        exact received

/-- The line arrives whole, and the server does what it asks for: whenever a login's session
serves the packet and all calls succeed, as `Evolves` has it, the archive holds the files at the
paths of the line, or an error says that one is not there. -/
theorem compress_command (junk : Nat → Nat → Buffer) (readEntireFile : Str → Option (List UInt8))
    (naming : Naming Place) {input : Buffer} {line : Str} (h : HoldsLine input line)
    (typed : request.Typed line) (fits : request.Fits) :
    ∃ packet, parseCommandToPackets junk readEntireFile input = .ok (some [packet]) ∧
      ∀ {users : DatabaseHandler} {fuel : Nat} {ty : PacketType} {receiveBuffer : Buffer}
        {cb : ConnectionBuffer} {s s' : HandlerState} {tree : FileTree Place}
        {events : List ServerEvent} {v : ArchiveState Place}, cb.frame = packet.frame →
        ty.toByte = cb.buffer.command → s.session.id ≠ [] →
        Exec (dispatch users fuel ty receiveBuffer cb s) events (.ok s') →
        Evolves (ArchiveStep naming.locate) (.start tree) events v →
        request.Handled naming.locate s.session tree events v := by
  obtain ⟨packet, hparse, hreceived⟩ := parse_compress_received junk readEntireFile h typed fits
  refine ⟨packet, hparse, ?_⟩
  rintro users fuel ty receiveBuffer ⟨c, frame⟩ s s' tree events v rfl hty hid run follows
  have received := hreceived c
  obtain rfl := PacketType.toByte_inj.mp (hty.trans received.command)
  rw [dispatch_authorized hid rfl] at run
  exact received.handled run follows

end Command

/-! ### One file -/

def oneFileRequest : CompressRequest := ⟨ascii "a", [.path (ascii "x"), .format .lz4]⟩

theorem typed_oneFileRequest : oneFileRequest.Typed (ascii "compress a x --format LZ4") :=
  ⟨⟨ascii "a x --format LZ4", by decide, by decide⟩, by decide, by decide⟩

/-- The handler can take all these calls for a packet that arrived. -/
theorem exec_oneFileRequest {cb : ConnectionBuffer} (received : oneFileRequest.Received cb.buffer) :
    Exec (reqCompress 2 cb ⟨rootSession, adminConnected, Buffer.zero⟩) oneFileEvents
      (.ok ⟨rootSession, adminConnected,
        Buffer.zero.setHeader .respCompress sizeofSamplePacket⟩) := by
  have looked : Exec (filesToCompress rootSession cb.buffer)
      [⟨.pathExists (rootSession.path (ascii "x")), Except.ok true⟩]
      (.ok (some [rootSession.path (ascii "x")])) := by
    unfold filesToCompress
    rw [if_neg (by rw [received.all]; decide)]
    exact exec_listedNames rootSession received.slots []
  rw [reqCompress_eq received.archive, received.format]
  exact looked.bind (exec_oneFileCalls _)

theorem compress_command_example :
    ∃ packet s' v, parseCommandToPackets (fun _ _ => Buffer.zero) (fun _ => none)
        (lineBuffer (ascii "compress a x --format LZ4")) = .ok (some [packet]) ∧
      Exec (dispatch exampleUsers 2 .reqCompress Buffer.zero ⟨0, packet.frame⟩
        ⟨rootSession, adminConnected, Buffer.zero⟩) oneFileEvents (.ok s') ∧
      oneFileRequest.Handled plainNaming.locate rootSession oneFile oneFileEvents v := by
  have holds : HoldsLine (lineBuffer (ascii "compress a x --format LZ4"))
      (ascii "compress a x --format LZ4") := holdsLine_lineBuffer (by decide) (by decide)
  have fits : oneFileRequest.Fits := .inl (by decide)
  obtain ⟨v, follows⟩ := follows_oneFileEvents
  obtain ⟨packet, hparse, handled⟩ := compress_command (fun _ _ => Buffer.zero) (fun _ => none)
    plainNaming holds typed_oneFileRequest fits
  obtain ⟨sent, hsent, hreceived⟩ := parse_compress_received (fun _ _ => Buffer.zero)
    (fun _ => none) holds typed_oneFileRequest fits
  cases hparse.symm.trans hsent
  have run : Exec (dispatch exampleUsers 2 .reqCompress Buffer.zero ⟨0, packet.frame⟩
      ⟨rootSession, adminConnected, Buffer.zero⟩) oneFileEvents _ :=
    exec_oneFileRequest (hreceived 0)
  exact ⟨packet, _, v, hparse, run,
    handled rfl (hreceived 0).command.symm (by decide) run follows⟩

end ConcurrentTcp
