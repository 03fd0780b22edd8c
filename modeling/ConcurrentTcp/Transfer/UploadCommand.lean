import ConcurrentTcp.Base.Copies
import ConcurrentTcp.Protocol.ClientPackets
import ConcurrentTcp.Transfer.Replace

/-!
An upload command with all its files.

The client sends the packets of a command as long as no answer is an error. `GoesThrough`
says that none is; then the packets are handled one after the other, in every run of the
client (`GoesThrough.handled`), and there is such a run (`GoesThrough.exists_sent`). The packets
of an upload are answered so (`uploadPackets_goesThrough`), and leave copies of the files
(`uploadPackets_copies`).
-/

namespace ConcurrentTcp

open Interaction Files

variable {Node : Type} [DecidableEq Node]

/-! ### Answers that let the client go on -/

/-- The answers of the upload handlers. -/
def GoesOn (events : List ServerEvent) : Prop :=
  ∃ tls answer, sends events = [sampleFrame tls answer] ∧
    (answer = .respContinue ∨ answer = .respFileTransferOk)

/-- However these packets are handled one after the other, each answer lets the client go
on. -/
def GoesThrough (users : DatabaseHandler) (locate : Str → Node) (c : ConnId) :
    Storage Node → List Buffer → Prop
  | _, [] => True
  | s, packet :: packets => ∀ events t, Handled users locate c s packet.frame events t →
      GoesOn events ∧ GoesThrough users locate c t packets

section Answers

variable {users : DatabaseHandler} {locate home : Str → Node} {c : ConnId} {s t : Storage Node}
  {w w' : ClientWorld Node} {packets rest : List Buffer} {packet buf : Buffer}
  {junk : Nat → Buffer} {events : List ClientEvent} {out : Except Fault Unit}

theorem HandledAll.append_inv {first second : List (List UInt8)} {events : List ServerEvent}
    (handled : HandledAll users locate c s (first ++ second) events t) :
    ∃ u before after, HandledAll users locate c s first before u ∧
      HandledAll users locate c u second after t ∧ events = before ++ after := by
  induction first generalizing s events with
  | nil => exact ⟨s, [], events, .nil s, handled, rfl⟩
  | cons frame first ih =>
      cases handled with
      | cons here later =>
          obtain ⟨u, before, after, left, right, rfl⟩ := ih later
          exact ⟨u, _, after, .cons here left, right, (List.append_assoc ..).symm⟩

theorem GoesThrough.append (first : GoesThrough users locate c s packets)
    (second : ∀ events t, HandledAll users locate c s (packets.map Buffer.frame) events t →
      GoesThrough users locate c t rest) : GoesThrough users locate c s (packets ++ rest) := by
  induction packets generalizing s with
  | nil => exact second [] s (.nil s)
  | cons packet packets ih =>
      intro events t handled
      obtain ⟨goes, later⟩ := first events t handled
      exact ⟨goes, ih later fun more u rest => second _ u (.cons handled rest)⟩

/-- The client reads such an answer whole, and does not stop. -/
theorem GoesOn.received {first : List ServerEvent} (goes : GoesOn first) (buf : Buffer)
    (junk : Nat → Buffer) :
    declaredSize (sends first).flatten = (sends first).flatten.length ∧
      handleResponsePacket junk (buf.write 0 (sends first).flatten) = .ret false := by
  obtain ⟨tls, answer, hsends, hanswer⟩ := goes
  obtain ⟨frame, hframe, hsize⟩ := oneFrame_sampleFrame tls answer
  cases hframe
  rw [hsends, List.flatten_singleton]
  refine ⟨hsize, ?_⟩
  have hcommand := command_receive buf (sampleFrame_command tls answer)
  rw [handleResponsePacket, hcommand, PacketType.ofByte?_toByte]
  rcases hanswer with rfl | rfl
  · rfl
  · rfl

/-- One packet of the send loop. -/
theorem sendPackets_goesOn
    (answered : ∀ events t, Handled users locate c w.server packet.frame events t → GoesOn events)
    (hunread : w.unread = []) (run : Exec (sendPackets junk buf (packet :: packets)) events out)
    (did : ClientRun users locate home c w events w') :
    ∃ first server buf' later, Handled users locate c w.server packet.frame first server ∧
      Exec (sendPackets junk buf' packets) later out ∧
      ClientRun users locate home c { w with server := server } later w' := by
  obtain ⟨sent, rest, rfl, afterSend⟩ := exec_clientCall_iff.mp run
  obtain ⟨rfl, first, server, handled, didRecv⟩ := did.send_inv
  obtain ⟨frame, later, rfl, afterRecv⟩ := exec_clientCall_iff.mp afterSend
  obtain ⟨hsize, hgoes⟩ := (answered first server handled).received buf junk
  have hread : w.unread ++ (sends first).flatten = (sends first).flatten := by
    rw [hunread, List.nil_append]
  obtain ⟨rfl, didRest⟩ := didRecv.recv_frame hread hsize
  dsimp only at afterRecv
  rw [hgoes] at afterRecv
  refine ⟨first, server, _, later, handled, afterRecv, ?_⟩
  rw [hunread]
  exact didRest

/-- In every run of the client its packets are handled one after the other. -/
theorem GoesThrough.handled (through : GoesThrough users locate c w.server packets)
    (hunread : w.unread = []) (run : Exec (sendPackets junk buf packets) events out)
    (did : ClientRun users locate home c w events w') :
    ∃ all server, HandledAll users locate c w.server (packets.map Buffer.frame) all server ∧
      w' = { w with server := server } := by
  induction packets generalizing w buf events with
  | nil =>
      obtain ⟨rfl, -⟩ := Exec.ret_iff.mp run
      cases did
      exact ⟨[], _, .nil _, rfl⟩
  | cons packet packets ih =>
      obtain ⟨first, server, buf', later, handled, run, did⟩ :=
        sendPackets_goesOn (fun events t handled => (through events t handled).1) hunread run did
      obtain ⟨all, last, rest, rfl⟩ :=
        ih (w := { w with server := server }) (through first server handled).2 hunread run did
      exact ⟨_, last, .cons handled rest, rfl⟩

/-- Packets that can be handled can be sent. -/
theorem GoesThrough.exists_sent {all : List ServerEvent} (junk : Nat → Buffer) (buf : Buffer)
    (through : GoesThrough users locate c w.server packets) (hunread : w.unread = [])
    (handled : HandledAll users locate c w.server (packets.map Buffer.frame) all t) :
    ∃ events, Exec (sendPackets junk buf packets) events (.ok ()) ∧
      ClientRun users locate home c w events { w with server := t } := by
  induction packets generalizing w buf all with
  | nil =>
      cases handled
      exact ⟨[], .ret (), .nil w⟩
  | cons packet packets ih =>
      cases handled with
      | cons first rest =>
      rename_i server before after
      obtain ⟨goes, later⟩ := through before server first
      obtain ⟨hsize, hgoes⟩ := goes.received buf junk
      obtain ⟨events, run, did⟩ := ih (w := { w with server := server })
        (buf.write 0 (sends before).flatten) later hunread rest
      have hread : recvFromServer (w.unread ++ (sends before).flatten) =
          ((sends before).flatten, w.unread) := by
        rw [hunread, List.nil_append, recvFromServer_frame hsize]
      refine ⟨_, ?_, .cons (.send first) (.cons (.recv hread) did)⟩
      refine exec_clientCall_iff.mpr ⟨true, _, rfl, exec_clientCall_iff.mpr ⟨_, _, rfl, ?_⟩⟩
      dsimp only
      rw [hgoes]
      exact run

end Answers

/-! ### The packets of an upload -/

section Upload

variable {users : DatabaseHandler} {locate home : Str → Node} {c : ConnId} {s t : Storage Node}
  {name : Str} {content : List UInt8} {chunks : List (List UInt8)} {packets : List Buffer}

theorem ChunkPackets.goesThrough (h : ChunkPackets chunks packets)
    (hlength : ∀ chunk ∈ chunks, chunk.length ≤ maxChunkSize) (hid : s.session.id ≠ []) :
    GoesThrough users locate c s packets := by
  induction h generalizing s with
  | last junk chunk =>
      intro events t handled
      have hchunk := hlength chunk (by simp)
      obtain ⟨tls, files, count, step, rfl, hsends⟩ :=
        handled.writes (carriesChunk_fileTransferChunk junk hchunk).endTransfer .last hchunk hid
      exact ⟨⟨tls, _, hsends, .inr rfl⟩, trivial⟩
  | more junk chunk packets ih =>
      intro events t handled
      obtain ⟨hchunk, hchunks⟩ := List.forall_mem_cons.mp hlength
      obtain ⟨tls, files, count, step, rfl, hsends⟩ :=
        handled.writes (carriesChunk_fileTransferChunk junk hchunk) .chunk hchunk hid
      exact ⟨⟨tls, _, hsends, .inl rfl⟩, ih hchunks hid⟩

theorem createFileTransferPackets_goesThrough (junk : Nat → Buffer)
    (hname : TransferName s.session name) (hid : s.session.id ≠ []) (hcontent : content ≠ []) :
    GoesThrough users locate c s (createFileTransferPackets junk name content maxChunkSize) := by
  obtain ⟨packets, chunks, hpackets⟩ :=
    createFileTransferPackets_of_ne junk name maxChunkSize hcontent
  rw [hpackets]
  intro events t handled
  obtain ⟨tls, files, fd, step, rfl, hsends⟩ := handled.opens hname hid
  have hlength : ∀ chunk ∈ breakVectorInto maxChunkSize content, chunk.length ≤ maxChunkSize :=
    fun chunk hmem => (length_of_mem_breakVectorInto (by decide) hmem).2
  exact ⟨⟨tls, _, hsends, .inl rfl⟩, chunks.goesThrough hlength hid⟩

/-- A transfer puts its content into the target. -/
theorem HandledAll.put {junk : Nat → Buffer} {events : List ServerEvent}
    (hname : TransferName s.session name) (hid : s.session.id ≠ []) (hcontent : content ≠ [])
    (handled : HandledAll users locate c s
      ((createFileTransferPackets junk name content maxChunkSize).map Buffer.frame) events t) :
    (∃ fd, t.session = { s.session with fd := fd }) ∧
      t.files.content = Contents.put s.files.content (locate (s.session.path name)) content := by
  obtain ⟨fd, hfree, done, -⟩ := handled.uploaded hname hid hcontent
  refine ⟨⟨fd, done.session⟩, funext fun node => ?_⟩
  by_cases hnode : node = locate (s.session.path name)
  · subst hnode
    rw [done.content, Contents.put_self]
  · rw [done.touches.content node hnode, Contents.put_of_ne _ _ hnode]

/-- The files of a command, as copies. -/
def uploadCopies (locate home : Str → Node) (session : Session) (paths : List Str) :
    List (Copy Node) :=
  paths.map fun path => ⟨home path, locate (session.path path)⟩

section Packets

variable {junk : Nat → Nat → Buffer} {readEntireFile : Str → Option (List UInt8)} {i : Nat}
  {path : Str} {paths : List Str}

/-- The packets of the first file, and those of the others. -/
theorem uploadPackets_cons (h : uploadPackets junk readEntireFile i (path :: paths) = .ok packets) :
    ∃ content later, readEntireFile path = some content ∧
      uploadPackets junk readEntireFile (i + 1) paths = .ok later ∧
      packets = createFileTransferPackets (junk i) path content maxChunkSize ++ later := by
  rw [uploadPackets] at h
  cases hread : readEntireFile path with
  | none =>
      rw [hread] at h
      cases h
  | some content =>
      rw [hread] at h
      dsimp only at h
      split at h
      · obtain ⟨later, hlater, heq⟩ := exists_of_bind h
        cases heq
        exact ⟨content, later, rfl, hlater, rfl⟩
      · cases h

/-- Each file of the command was read. -/
theorem isSome_of_uploadPackets (h : uploadPackets junk readEntireFile i paths = .ok packets) :
    ∀ path ∈ paths, (readEntireFile path).isSome = true := by
  induction paths generalizing i packets with
  | nil => simp
  | cons path paths ih =>
      obtain ⟨content, later, hread, hlater, -⟩ := uploadPackets_cons h
      exact List.forall_mem_cons.mpr ⟨by rw [hread]; rfl, ih hlater⟩

/-- The descriptor of the last upload is no part of a path. -/
theorem TransferName.setFd {session : Session} (hname : TransferName session name) (fd : Int) :
    TransferName { session with fd := fd } name :=
  ⟨hname.valid, hname.terminated, hname.fits, hname.pathFits⟩

theorem uploadPackets_goesThrough (h : uploadPackets junk readEntireFile i paths = .ok packets)
    (names : ∀ path ∈ paths, TransferName s.session path)
    (nonempty : ∀ path ∈ paths, readEntireFile path ≠ some []) (hid : s.session.id ≠ []) :
    GoesThrough users locate c s packets := by
  induction paths generalizing i s packets with
  | nil =>
      cases h
      trivial
  | cons path paths ih =>
      obtain ⟨hname, hnames⟩ := List.forall_mem_cons.mp names
      obtain ⟨hpath, hpaths⟩ := List.forall_mem_cons.mp nonempty
      obtain ⟨content, later, hread, hlater, rfl⟩ := uploadPackets_cons h
      have hcontent : content ≠ [] := fun hnil => hpath (hread.trans (congrArg some hnil))
      refine (createFileTransferPackets_goesThrough _ hname hid hcontent).append ?_
      intro events t handled
      obtain ⟨⟨fd, hsession⟩, -⟩ := handled.put hname hid hcontent
      refine ih hlater (fun path hmem => ?_) hpaths (by rwa [hsession])
      rw [hsession]
      exact (hnames path hmem).setFd fd

/-- The files of a command are copied. -/
theorem uploadPackets_copies {own : Contents Node UInt8} {events : List ServerEvent}
    (h : uploadPackets junk (fun path => own (home path)) i paths = .ok packets)
    (names : ∀ path ∈ paths, TransferName s.session path)
    (nonempty : ∀ path ∈ paths, own (home path) ≠ some []) (hid : s.session.id ≠ [])
    (handled : HandledAll users locate c s (packets.map Buffer.frame) events t) :
    (∃ fd, t.session = { s.session with fd := fd }) ∧ t.files.content =
      Contents.putAll s.files.content own (uploadCopies locate home s.session paths) := by
  induction paths generalizing i s packets events with
  | nil =>
      cases h
      cases handled
      exact ⟨⟨_, rfl⟩, rfl⟩
  | cons path paths ih =>
      obtain ⟨hname, hnames⟩ := List.forall_mem_cons.mp names
      obtain ⟨hpath, hpaths⟩ := List.forall_mem_cons.mp nonempty
      obtain ⟨content, later, hread, hlater, rfl⟩ := uploadPackets_cons h
      have hcontent : content ≠ [] := fun hnil => hpath (hread.trans (congrArg some hnil))
      rw [List.map_append] at handled
      obtain ⟨u, before, after, first, rest, rfl⟩ := handled.append_inv
      obtain ⟨⟨fd, hsession⟩, hput⟩ := first.put hname hid hcontent
      have hnames' : ∀ path ∈ paths, TransferName u.session path := by
        intro path hmem
        rw [hsession]
        exact (hnames path hmem).setFd fd
      obtain ⟨⟨fd', hsession'⟩, hcopies⟩ := ih hlater hnames' hpaths (by rwa [hsession]) rest
      rw [hsession] at hsession' hcopies
      rw [hput] at hcopies
      refine ⟨⟨fd', hsession'⟩, hcopies.trans ?_⟩
      simp only [uploadCopies, List.map_cons, Contents.putAll_cons, hread, Option.getD_some]
      rfl

end Packets

end Upload

end ConcurrentTcp
