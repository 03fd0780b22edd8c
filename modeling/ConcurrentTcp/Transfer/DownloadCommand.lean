import ConcurrentTcp.Base.Copies
import ConcurrentTcp.Transfer.DownloadFile

/-!
A download command, and what it leaves alone.

The server only reads for it: the calls of its two handlers change no content
(`FileRun.content_eq`). The client writes to the descriptor it opened. So a download that
is answered puts the file into its target, and changes nothing else (`sendPackets_fetches`).
-/

namespace ConcurrentTcp

open Interaction Files

variable {Node : Type}

/-! ### The server -/

/-- A call that does not change a content. -/
def ReadsFiles : ServerEvent → Prop
  | ⟨.openFile _ creat, _⟩ => creat = false
  | ⟨.write _ _ _, _⟩ => False
  | _ => True

/-- Between two packets of a download, only the descriptor of the session and the
descriptors changed. -/
structure OnlyReads (s t : Storage Node) : Prop where
  session : ∃ fd, t.session = { s.session with downloadFd := fd }
  content : t.files.content = s.files.content

section Server

variable {users : DatabaseHandler} {locate : Str → Node} {c : ConnId} {s t u : Storage Node}
  {events : List ServerEvent}

theorem OnlyReads.refl (s : Storage Node) : OnlyReads s s := ⟨⟨s.session.downloadFd, rfl⟩, rfl⟩

theorem OnlyReads.trans (first : OnlyReads s t) (second : OnlyReads t u) : OnlyReads s u := by
  obtain ⟨fd, hfirst⟩ := first.session
  obtain ⟨fd', hsecond⟩ := second.session
  refine ⟨⟨fd', ?_⟩, second.content.trans first.content⟩
  rw [hsecond, hfirst]

variable [DecidableEq Node]

theorem FileRun.content_eq {fs fs' : FileSystem Node UInt8} (run : FileRun locate fs events fs')
    (reads : ∀ e ∈ events, ReadsFiles e) : fs'.content = fs.content := by
  induction run with
  | nil => rfl
  | send _ ih => exact ih (List.forall_mem_cons.mp reads).2
  | @call fs fs' fs'' e op events hop step _ ih =>
      obtain ⟨here, later⟩ := List.forall_mem_cons.mp reads
      refine (ih later).trans ?_
      obtain ⟨call, answer⟩ := e
      cases step with
      | opens hfd hfree hexists =>
          cases call <;> cases hop
          cases here
          obtain ⟨content, hcontent⟩ := Option.isSome_iff_exists.mp (hexists.resolve_left (by simp))
          rw [FileSystem.content_setDescriptor, FileSystem.setContent, hcontent, Option.getD_some,
            ← hcontent]
          exact Function.update_eq_self ..
      | size _ _ _ => rfl
      | seek _ => rfl
      | read _ _ _ => rfl
      | write _ _ =>
          cases call <;> cases hop
          exact here.elim
      | writeOther _ => rfl
      | close _ => rfl

theorem Handled.fileOpen_onlyReads {junk : Buffer} {name : Str}
    (hname : TransferName s.session name) (hid : s.session.id ≠ [])
    (handled : Handled users locate c s (createDownloadFilePacket junk name).frame events t) :
    OnlyReads s t := by
  obtain ⟨fuel, tls, run, ops⟩ := handled
  have hdecode := decodePath_createDownloadFilePacket junk c hname.terminated hname.fits
  rw [fileOpen_handler users fuel hid] at run
  obtain ⟨u, hend, calls⟩ := (exec_reqFileOpen_iff hdecode hname.valid hname.sprintfPath_eq).mp run
  cases hend
  refine ⟨?_, ops.content_eq ?_⟩
  · cases calls with
    | notOpened => exact ⟨_, rfl⟩
    | noSize => exact ⟨_, rfl⟩
    | opened => exact ⟨_, rfl⟩
  · cases calls <;> simp [ReadsFiles]

theorem Handled.downloadChunk_onlyReads {junk : Buffer} {chunk : Nat} (hid : s.session.id ≠ [])
    (handled : Handled users locate c s (downloadChunkRequest junk chunk).frame events t) :
    OnlyReads s t := by
  obtain ⟨fuel, tls, run, ops⟩ := handled
  rw [downloadChunk_handler users fuel hid] at run
  obtain ⟨u, hend, calls⟩ := exec_reqFileDownloadChunk_iff.mp run
  cases hend
  refine ⟨?_, ops.content_eq ?_⟩
  · cases calls with
    | notThere => exact ⟨_, rfl⟩
    | answered => exact ⟨_, rfl⟩
  · cases calls <;> simp [ReadsFiles]

end Server

/-! ### The loop of the client -/

/-- A call of the download loop. -/
inductive LoopEvent (file : Int) : ClientEvent → Prop where
  | send (junk : Buffer) (chunk : Nat) (sent : Bool) :
      LoopEvent file ⟨.send (downloadChunkRequest junk chunk).frame, sent⟩
  | recv (frame : List UInt8) : LoopEvent file ⟨.recv, frame⟩
  | write (data : Buffer) (count : Nat) (written : Int) :
      LoopEvent file ⟨.write file data count, written⟩

section Loop

variable [DecidableEq Node] {users : DatabaseHandler} {locate home : Str → Node} {c : ConnId}
  {w w' : ClientWorld Node} {events later : List ClientEvent} {file : Int} {target : Node}
  {junk : Nat → Buffer} {buf : Buffer} {chunk left : Nat} {out : Except Fault Unit}

theorem ClientRun.append_inv (did : ClientRun users locate home c w (events ++ later) w') :
    ∃ between, ClientRun users locate home c w events between ∧
      ClientRun users locate home c between later w' := by
  induction events generalizing w with
  | nil => exact ⟨w, .nil w, did⟩
  | cons e events ih =>
      cases did with
      | cons step rest =>
          obtain ⟨between, first, second⟩ := ih rest
          exact ⟨between, .cons step first, second⟩

theorem loopEvent_of_downloadChunks
    (run : Exec (downloadChunks junk file buf chunk left) events out) :
    ∀ e ∈ events, LoopEvent file e := by
  induction left generalizing chunk buf events with
  | zero =>
      obtain ⟨rfl, -⟩ := Exec.ret_iff.mp run
      simp
  | succ left ih =>
      obtain ⟨sent, rest, rfl, afterSend⟩ := exec_clientCall_iff.mp run
      refine List.forall_mem_cons.mpr ⟨.send _ _ sent, ?_⟩
      cases sent with
      | false =>
          obtain ⟨rfl, -⟩ := Exec.ret_iff.mp afterSend
          simp
      | true =>
          obtain ⟨frame, rest, rfl, afterRecv⟩ := exec_clientCall_iff.mp afterSend
          obtain ⟨written, rest, rfl, afterWrite⟩ := exec_clientCall_iff.mp afterRecv
          exact List.forall_mem_cons.mpr ⟨.recv frame, List.forall_mem_cons.mpr
            ⟨.write _ _ written, ih afterWrite⟩⟩

/-- What a download changes: on the server nothing but descriptors, on the client only its
target. -/
structure OnlyFetches (target : Node) (w w' : ClientWorld Node) : Prop where
  server : OnlyReads w.server w'.server
  files : ∀ other, other ≠ target → w'.files.content other = w.files.content other

/-- The calls of the loop, while the descriptor stands for the target. -/
theorem ClientRun.onlyFetches (loop : ∀ e ∈ events, LoopEvent file e)
    (hid : w.server.session.id ≠ [])
    (hfile : ∃ n, w.files.descriptor file = some (.file target n))
    (did : ClientRun users locate home c w events w') : OnlyFetches target w w' := by
  induction did with
  | nil => exact ⟨.refl _, fun _ _ => rfl⟩
  | @cons w between w' e events step _ ih =>
      obtain ⟨here, later⟩ := List.forall_mem_cons.mp loop
      cases step with
      | send handled =>
          cases here with
          | send junk chunk sent =>
              have reads := handled.downloadChunk_onlyReads hid
              obtain ⟨fd, hsession⟩ := reads.session
              have next := ih later (by rwa [hsession]) hfile
              exact ⟨reads.trans next.server, next.files⟩
      | recv _ =>
          have next := ih later hid hfile
          exact ⟨next.server, next.files⟩
      | file hop did =>
          cases here with
          | send _ _ _ => cases hop
          | recv _ => cases hop
          | write data count written =>
              cases hop
              obtain ⟨n, hdescriptor⟩ := hfile
              cases did with
              | write hfd hold =>
                  rw [hdescriptor] at hfd
                  cases hfd
                  have next := ih later hid ⟨_, FileSystem.descriptor_setDescriptor_self ..⟩
                  refine ⟨next.server, fun other hne => (next.files other hne).trans ?_⟩
                  exact FileSystem.content_setContent_of_ne _ _ hne
              | writeOther hfd =>
                  rw [hdescriptor] at hfd
                  cases hfd

end Loop

/-! ### The command -/

/-- What the client reads. -/
def received? : ClientEvent → Option (List UInt8)
  | ⟨.recv, (frame : List UInt8)⟩ => some frame
  | _ => none

/-- The first answer, which is the second call, says that the file is opened. -/
def announced (events : List ClientEvent) : Bool :=
  (events[1]?.bind received?).bind (·[1]?) = some PacketType.respFileOpened.toByte

section Command

variable [DecidableEq Node] {users : DatabaseHandler} {locate home : Str → Node} {c : ConnId}
  {w w' : ClientWorld Node} {events : List ClientEvent} {junk : Nat → Buffer} {p : Buffer}
  {name : Str} {content : List UInt8} {out : Except Fault Unit}

/-- The client after a file was opened for it. -/
theorem FileOpened.fetches {fd : Int} {before : Storage Node}
    (opened : FileOpened locate name fd content before w.server)
    (hid : before.session.id ≠ []) (hunread : w.unread = [])
    (hchunks : PacketDownloadedFileInfo.decodeChunks p = chunkCount content.length)
    (hname : PacketDownloadedFileInfo.decodeFileName p = some name)
    (run : Exec (handleFileOpenedResp junk p) events out)
    (did : ClientRun users locate home c w events w') :
    OnlyReads w.server w'.server ∧ w'.unread = [] ∧
      w'.files.content = Contents.put w.files.content (home name) content := by
  unfold handleFileOpenedResp at run
  rw [hname] at run
  obtain ⟨file, rest, rfl, afterOpen⟩ := exec_clientCall_iff.mp run
  obtain ⟨files, step, didLoop⟩ := did.file_inv rfl
  have start := opened.start hid hunread step
  rw [hchunks] at afterOpen
  rcases Exec.bind_cases afterOpen with ⟨u, loop, last, loops, afterLoop, rfl⟩ | ⟨e, loops, rfl⟩
  · obtain ⟨between, didRounds, didClose⟩ := didLoop.append_inv
    have reads := didRounds.onlyFetches (loopEvent_of_downloadChunks loops) start.login
      ⟨_, start.file⟩
    rw [← List.append_nil loop] at didRounds
    obtain ⟨-, -, w'', done, ends⟩ := start.loop (by omega) opened.size loops didRounds
    cases ends
    have written := done.written
    rw [Nat.zero_add, take_chunkCount] at written
    obtain ⟨result, rest, rfl, afterClose⟩ := exec_clientCall_iff.mp afterLoop
    obtain ⟨rfl, -⟩ := Exec.ret_iff.mp afterClose
    obtain ⟨closed, close, didAll⟩ := didClose.file_inv rfl
    cases didAll
    cases close
    refine ⟨reads.server, done.unread, funext fun node => ?_⟩
    by_cases hnode : node = home name
    · subst hnode
      rw [Contents.put_self]
      exact written
    · rw [Contents.put_of_ne _ _ hnode]
      refine (reads.files node hnode).trans ?_
      cases step with
      | opens => exact FileSystem.content_setContent_of_ne _ _ hnode
  · rw [← List.append_nil rest] at didLoop
    obtain ⟨hout, -⟩ := start.loop (by omega) opened.size loops didLoop
    cases hout

/-- A download command: it is refused, or the file is put into its target. -/
theorem sendPackets_fetches {junkOpen buf : Buffer} (hname : TransferName w.server.session name)
    (hid : w.server.session.id ≠ []) (hunread : w.unread = [])
    (run : Exec (sendPackets junk buf [createDownloadFilePacket junkOpen name]) events out)
    (did : ClientRun users locate home c w events w') :
    OnlyReads w.server w'.server ∧ w'.unread = [] ∧
      (announced events = false ∧ w'.files = w.files ∨ announced events = true ∧
        ∃ content, w.server.files.content (locate (w.server.session.path name)) = some content ∧
          w'.files.content = Contents.put w.files.content (home name) content) := by
  obtain ⟨sent, rest, rfl, afterSend⟩ := exec_clientCall_iff.mp run
  obtain ⟨rfl, first, server, handled, didRecv⟩ := did.send_inv
  obtain ⟨frame, rest, rfl, afterRecv⟩ := exec_clientCall_iff.mp afterSend
  have reads := handled.fileOpen_onlyReads hname hid
  rcases handled.fileOpen hname hid with ⟨tls, hsends⟩ | ⟨fd, content, tls, opened, hsends⟩
  · obtain ⟨answer, hanswer, hsize⟩ := oneFrame_sampleFrame tls .respIoError
    cases hanswer
    have hread : w.unread ++ (sends first).flatten = sampleFrame tls .respIoError := by
      simp [hunread, hsends]
    obtain ⟨rfl, didStop⟩ := didRecv.recv_frame hread hsize
    have hcommand := command_receive buf (sampleFrame_command tls .respIoError)
    dsimp only at afterRecv
    rw [handleResponsePacket, hcommand, PacketType.ofByte?_toByte] at afterRecv
    obtain ⟨rfl, -⟩ := Exec.ret_iff.mp afterRecv
    cases didStop
    refine ⟨reads, rfl, .inl ⟨decide_eq_false ?_, rfl⟩⟩
    simp [received?, sampleFrame_command]
  · have hread : w.unread ++ (sends first).flatten =
        infoFrame tls (chunkCount content.length) name := by
      simp [hunread, hsends, infoFrame]
    obtain ⟨rfl, didOpen⟩ := didRecv.recv_frame hread (declaredSize_infoFrame ..)
    obtain ⟨hchunks, hfile⟩ :=
      receive_infoFrame buf tls (chunkCount_lt opened.size) hname.terminated hname.fits
    have hcommand := command_receive buf (command_infoFrame tls (chunkCount content.length) name)
    have hannounced : announced (⟨.send (createDownloadFilePacket junkOpen name).frame, true⟩ ::
        ⟨.recv, infoFrame tls (chunkCount content.length) name⟩ :: rest) = true := by
      refine decide_eq_true ?_
      simp [received?, command_infoFrame]
    dsimp only at afterRecv
    rw [handleResponsePacket_opened junk hcommand, Prog.bind_assoc] at afterRecv
    rcases Exec.bind_cases afterRecv with ⟨u, opening, last, opens, ends, rfl⟩ | ⟨e, opens, rfl⟩
    · obtain ⟨rfl, -⟩ := Exec.ret_iff.mp ends
      rw [List.append_nil] at didOpen hannounced ⊢
      obtain ⟨later, hdone, hput⟩ := opened.fetches hid rfl hchunks hfile opens didOpen
      exact ⟨reads.trans later, hdone, .inr ⟨hannounced, content, opened.existing, hput⟩⟩
    · obtain ⟨later, hdone, hput⟩ := opened.fetches hid rfl hchunks hfile opens didOpen
      exact ⟨reads.trans later, hdone, .inr ⟨hannounced, content, opened.existing, hput⟩⟩

end Command

end ConcurrentTcp
