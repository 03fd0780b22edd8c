import ConcurrentTcp.Transfer.DownloadCommand
import ConcurrentTcp.Transfer.UploadCommand

/-!
Uploads and downloads of one connection, in any order.

Between its commands anything may happen to the files of both sides, by the user of the
client and by the other connections. `transfers_refine_copies`: all that the packets of the
commands do is to copy files (`copySystem`). `upload_returned` says for a file that was
uploaded what a later download brings back.
-/

namespace ConcurrentTcp

open Interaction Files Transition

variable {Node : Type}

/-! ### Commands -/

inductive TransferLabel where
  | others
  | upload (paths : List Str)
  | download (name : Str) (opened : Bool)

/-- The commands of a client that is logged in, each up to its last call. The client reads
the files of an upload; an empty one is no transfer. -/
inductive TransferStep [DecidableEq Node] (users : DatabaseHandler) (locate home : Str → Node)
    (c : ConnId) : ClientWorld Node → TransferLabel → ClientWorld Node → Prop where
  | others (w : ClientWorld Node) (g : GlobalState) (files own : FileSystem Node UInt8) :
      TransferStep users locate home c w .others ⟨⟨w.server.session, g, files⟩, own, w.unread⟩
  | upload {w w' : ClientWorld Node} {paths : List Str} {packets : List Buffer}
      {junk : Nat → Nat → Buffer} {junkChunk : Nat → Buffer} {buf : Buffer}
      {events : List ClientEvent} {out : Except Fault Unit} :
      (∀ path ∈ paths, TransferName w.server.session path) →
      (∀ path ∈ paths, w.files.content (home path) ≠ some []) →
      uploadPackets junk (fun path => w.files.content (home path)) 0 paths = .ok packets →
      Exec (sendPackets junkChunk buf packets) events out →
      ClientRun users locate home c w events w' →
      TransferStep users locate home c w (.upload paths) w'
  | download {w w' : ClientWorld Node} {name : Str} {opened : Bool} {junk : Nat → Buffer}
      {junkOpen buf : Buffer} {events : List ClientEvent} {out : Except Fault Unit} :
      TransferName w.server.session name →
      Exec (sendPackets junk buf [createDownloadFilePacket junkOpen name]) events out →
      ClientRun users locate home c w events w' → announced events = opened →
      TransferStep users locate home c w (.download name opened) w'

def transferSystem [DecidableEq Node] (users : DatabaseHandler) (locate home : Str → Node)
    (c : ConnId) : System (ClientWorld Node) TransferLabel where
  init := fun w => w.server.session.id ≠ [] ∧ w.unread = []
  step := TransferStep users locate home c

/-! ### Copies -/

/-- The client is here, the server there. -/
def ClientWorld.sides (w : ClientWorld Node) : Sides Node UInt8 where
  here := w.files.content
  there := w.server.files.content

/-- What a command copies, for a session with this directory. -/
def TransferLabel.copies (locate home : Str → Node) (session : Session) :
    TransferLabel → CopyLabel Node
  | .others => .others
  | .upload paths => .send (uploadCopies locate home session paths)
  | .download name true => .fetch ⟨locate (session.path name), home name⟩
  | .download _ false => .refuse

/-- A move of a session as a copy. -/
def copyMove (locate home : Str → Node) (session : Session)
    (m : Move (ClientWorld Node) TransferLabel) : Move (Sides Node UInt8) (CopyLabel Node) :=
  ⟨m.pre.sides, m.label.copies locate home session, m.post.sides⟩

/-- Between two commands nothing is left to read, and the user stays where he is. -/
structure BetweenCommands (session : Session) (w : ClientWorld Node) : Prop where
  login : w.server.session.id ≠ []
  currentDir : w.server.session.currentDir = session.currentDir
  unread : w.unread = []

theorem BetweenCommands.path {session : Session} {w : ClientWorld Node}
    (between : BetweenCommands session w) (name : Str) :
    w.server.session.path name = session.path name := by
  unfold Session.path
  rw [between.currentDir]

section Sessions

variable [DecidableEq Node] {users : DatabaseHandler} {locate home : Str → Node} {c : ConnId}
  {w w' : ClientWorld Node} {session : Session} {l : TransferLabel}

/-- A command copies files, and leaves the connection ready for the next one. -/
theorem TransferStep.copies (between : BetweenCommands session w)
    (step : TransferStep users locate home c w l w') :
    BetweenCommands session w' ∧ CopyStep w.sides (l.copies locate home session) w'.sides := by
  cases step with
  | others g files own =>
      exact ⟨⟨between.login, between.currentDir, between.unread⟩, .others ..⟩
  | @upload _ paths packets junk junkChunk buf events out names nonempty hpackets run did =>
      have through : GoesThrough users locate c w.server packets :=
        uploadPackets_goesThrough hpackets names nonempty between.login
      obtain ⟨all, server, handled, rfl⟩ := through.handled between.unread run did
      obtain ⟨⟨fd, hsession⟩, hcopies⟩ :=
        uploadPackets_copies hpackets names nonempty between.login handled
      have hpaths : uploadCopies locate home w.server.session paths =
          uploadCopies locate home session paths := by
        simp only [uploadCopies, between.path]
      refine ⟨⟨?_, ?_, between.unread⟩, ?_⟩
      · rw [hsession]
        exact between.login
      · rw [hsession]
        exact between.currentDir
      · have present : ∀ copy ∈ uploadCopies locate home session paths,
            (w.files.content copy.source).isSome = true := by
          intro copy hcopy
          obtain ⟨path, hpath, rfl⟩ := List.mem_map.mp hcopy
          exact isSome_of_uploadPackets hpackets path hpath
        rw [hpaths] at hcopies
        have hsides : ClientWorld.sides { w with server := server } =
            ⟨w.files.content, Contents.putAll w.server.files.content w.files.content
              (uploadCopies locate home session paths)⟩ := congrArg (Sides.mk _) hcopies
        rw [hsides]
        exact .send present
  | @download _ name opened junk junkOpen buf events out hname run did hopened =>
      obtain ⟨reads, hunread, result⟩ :=
        sendPackets_fetches hname between.login between.unread run did
      obtain ⟨fd, hsession⟩ := reads.session
      refine ⟨⟨?_, ?_, hunread⟩, ?_⟩
      · rw [hsession]
        exact between.login
      · rw [hsession]
        exact between.currentDir
      · rcases result with ⟨hopened', hfiles⟩ | ⟨hopened', content, hcontent, hput⟩
        · rw [hopened'] at hopened
          subst hopened
          have hsides : w'.sides = w.sides := by
            rw [ClientWorld.sides, ClientWorld.sides, hfiles, reads.content]
          rw [hsides]
          exact .refuse _
        · rw [hopened'] at hopened
          subst hopened
          rw [between.path] at hcontent
          have hsides : w'.sides = ⟨Contents.put w.files.content (home name) content,
              w.server.files.content⟩ := congrArg₂ Sides.mk hput reads.content
          rw [hsides]
          exact .fetch hcontent

theorem transferRun_copies {moves : List (Move (ClientWorld Node) TransferLabel)}
    (login : w.server.session.id ≠ []) (hunread : w.unread = [])
    (run : Run (transferSystem users locate home c) w moves w') :
    Run (copySystem Node UInt8) w.sides (moves.map (copyMove locate home w.server.session))
      w'.sides := by
  have start : BetweenCommands w.server.session w := ⟨login, rfl, hunread⟩
  have hmoves : moves.map (copyMove locate home w.server.session) = projection ClientWorld.sides
      (fun l => some (l.copies locate home w.server.session)) moves :=
    (congrFun List.filterMap_eq_map moves).symm
  rw [hmoves]
  refine run.project (fun s l t between step => ?_) (fun s l t _ _ hidden => ?_) ?_ start
  · have step : TransferStep users locate home c s l t := step
    exact (step.copies between).1
  · cases hidden
  · intro s l t l' between step hvisible
    cases hvisible
    have step : TransferStep users locate home c s l t := step
    exact (step.copies between).2

end Sessions

/-! ### Results -/

section Results

variable [DecidableEq Node] {users : DatabaseHandler} {locate home : Str → Node} {c : ConnId}
  {w w' : ClientWorld Node}

/-- Every run of uploads and downloads is a run of copies between the files of both sides. It
starts on a connection that is logged in and has nothing left to read. Operations succeed in
full and responses are read whole; the names are accepted and fit (`TransferName`), no uploaded
file is empty, and the connection gets no other command. -/
theorem transfers_refine_copies {moves : List (Move (ClientWorld Node) TransferLabel)}
    (login : w.server.session.id ≠ []) (hunread : w.unread = [])
    (run : Run (transferSystem users locate home c) w moves w') :
    Run (copySystem Node UInt8) w.sides (moves.map (copyMove locate home w.server.session))
      w'.sides :=
  transferRun_copies login hunread run

/-- A command, or what others do, that does not store anything in this file of the
server. -/
def SparesRemote (locate : Str → Node) (session : Session) (node : Node)
    (m : Move (ClientWorld Node) TransferLabel) : Prop :=
  match m.label with
  | .others => m.post.server.files.content node = m.pre.server.files.content node
  | .upload paths => ∀ path ∈ paths, locate (session.path path) ≠ node
  | .download _ _ => True

omit [DecidableEq Node] in
theorem SparesRemote.spares {session : Session} {node : Node}
    {m : Move (ClientWorld Node) TransferLabel} (spared : SparesRemote locate session node m)
    (home : Str → Node) : Spares node (copyMove locate home session m) := by
  obtain ⟨s, l, t⟩ := m
  cases l with
  | others => exact spared
  | upload paths =>
      intro copy hcopy
      obtain ⟨path, hpath, rfl⟩ := List.mem_map.mp hcopy
      exact spared path hpath
  | download name opened => cases opened <;> trivial

/-- What is uploaded comes back. Between the upload and the download its target is spared, and the
uploaded file itself may change. Both targets keep what they have behind the end of the file.
The run is one of `transferSystem`: no command but uploads and downloads, so that the directory
stays, and no upload of an empty file, whose last packet would be written to the descriptor
that the first upload left open. `once`: no other path of the upload leads to the target. -/
theorem upload_returned {first last : Move (ClientWorld Node) TransferLabel}
    {between : List (Move (ClientWorld Node) TransferLabel)} {before after : List Str}
    {path name : Str} (login : w.server.session.id ≠ []) (hunread : w.unread = [])
    (run : Run (transferSystem users locate home c) w (first :: between ++ [last]) w')
    (uploaded : first.label = .upload (before ++ path :: after))
    (once : ∀ other ∈ before ++ after,
      locate (w.server.session.path other) ≠ locate (w.server.session.path path))
    (spared : ∀ m ∈ between,
      SparesRemote locate w.server.session (locate (w.server.session.path path)) m)
    (downloaded : last.label = .download name true)
    (same : locate (w.server.session.path name) = locate (w.server.session.path path)) :
    w'.files.content (home name) = some (overwrite ((last.pre.files.content (home name)).getD [])
      (overwrite ((w.server.files.content (locate (w.server.session.path path))).getD [])
        ((w.files.content (home path)).getD []))) := by
  obtain rfl : first.pre = w := by
    cases run
    rfl
  have copies := transferRun_copies login hunread run
  rw [List.map_append, List.map_cons] at copies
  have sent : (copyMove locate home first.pre.server.session first).label =
      .send (uploadCopies locate home first.pre.server.session before ++
        ⟨home path, locate (first.pre.server.session.path path)⟩ ::
          uploadCopies locate home first.pre.server.session after) := by
    simp [copyMove, uploaded, TransferLabel.copies, uploadCopies]
  have fetched : (copyMove locate home first.pre.server.session last).label =
      .fetch ⟨locate (first.pre.server.session.path path), home name⟩ := by
    rw [copyMove, downloaded, TransferLabel.copies, same]
  have alone : ∀ other ∈ uploadCopies locate home first.pre.server.session before ++
      uploadCopies locate home first.pre.server.session after,
        other.target ≠ locate (first.pre.server.session.path path) := by
    intro other hother
    rw [uploadCopies, uploadCopies, ← List.map_append] at hother
    obtain ⟨name, hname, rfl⟩ := List.mem_map.mp hother
    exact once name hname
  refine Run.returned copies sent alone ?_ fetched
  intro m hm
  obtain ⟨m, hmem, rfl⟩ := List.mem_map.mp hm
  exact (spared m hmem).spares home

end Results

/-! ### One byte -/

/-- The client has a file of one byte, the server has none. -/
def sourceWorld : ClientWorld Str where
  server := exampleStorage
  files := exampleHome.setContent (ascii "a") [7]
  unread := []

def bytePackets : List Buffer :=
  createFileTransferPackets (fun _ => Buffer.zero) (ascii "a") [7] maxChunkSize

/-- The file is uploaded, and then downloaded. -/
theorem exists_byte_session :
    ∃ first last w',
      Run (transferSystem exampleUsers id id 0) sourceWorld (first :: [] ++ [last]) w' ∧
      first.label = .upload ([] ++ ascii "a" :: []) ∧ last.label = .download (ascii "a") true := by
  have hread : sourceWorld.files.content (ascii "a") = some [7] :=
    FileSystem.content_setContent_self ..
  have hpackets : uploadPackets (fun _ _ => Buffer.zero)
      (fun path => sourceWorld.files.content (id path)) 0 [ascii "a"] =
        .ok bytePackets := by
    simp only [uploadPackets, id, hread]
    rfl
  have names : ∀ path ∈ [ascii "a"], TransferName sourceWorld.server.session path := by
    simp [sourceWorld, transferName_example]
  have nonempty : ∀ path ∈ [ascii "a"], sourceWorld.files.content (id path) ≠ some [] := by
    simp [hread]
  have hfree : exampleStorage.files.descriptor 6 = none := rfl
  obtain ⟨all, t, handled⟩ : ∃ all t,
      HandledAll exampleUsers id 0 exampleStorage (bytePackets.map Buffer.frame) all t :=
    exists_uploaded _ transferName_example (by decide) (by simp) (by decide) hfree
  have through : GoesThrough exampleUsers id 0 exampleStorage bytePackets :=
    createFileTransferPackets_goesThrough _ transferName_example (by decide) (by simp)
  obtain ⟨events, run, did⟩ : ∃ events, _ ∧
      ClientRun exampleUsers id id 0 sourceWorld events { sourceWorld with server := t } :=
    through.exists_sent (fun _ => Buffer.zero) Buffer.zero rfl handled
  have upload := TransferStep.upload names nonempty hpackets run did
  obtain ⟨used, -, done, -⟩ := handled.uploaded transferName_example (by decide) (by simp)
  obtain ⟨fd, hfd, hunused⟩ : ∃ fd, 0 < fd ∧ t.files.descriptor fd = none := by
    by_cases hused : used = 6
    · exact ⟨7, by decide, done.touches.descriptor 7 (by omega)⟩
    · exact ⟨6, by decide, done.touches.descriptor 6 (Ne.symm hused)⟩
  have hname : TransferName t.session (ascii "a") := by
    rw [done.session]
    exact transferName_example.setFd used
  have hid : t.session.id ≠ [] := by
    rw [done.session]
    exact (by decide : exampleStorage.session.id ≠ [])
  have hstored : t.files.content (id (t.session.path (ascii "a"))) = some [7] := by
    rw [done.session]
    exact done.content
  obtain ⟨events, w', tls, run, did, hinfo⟩ :
      ∃ events w' tls, _ ∧
        ClientRun exampleUsers id id 0 { sourceWorld with server := t } events w' ∧ _ :=
    exists_download fd 3 (fun _ => Buffer.zero) Buffer.zero Buffer.zero hname hid rfl hfd hunused
      hstored (by decide) (by decide) rfl
  have opened : announced events = true := by
    simp [announced, hinfo, received?, command_infoFrame]
  have download := TransferStep.download hname run did opened
  exact ⟨⟨_, _, _⟩, ⟨_, _, _⟩, w', .cons upload (.one download), rfl, rfl⟩

/-- The byte is copied there and back. -/
theorem transfers_refine_byte :
    ∃ moves w', moves.length = 2 ∧
      Run (transferSystem exampleUsers id id 0) sourceWorld moves w' ∧
      Run (copySystem Str UInt8) sourceWorld.sides
        (moves.map (copyMove id id exampleStorage.session)) w'.sides := by
  obtain ⟨first, last, w', run, -⟩ := exists_byte_session
  exact ⟨_, w', rfl, run, transfers_refine_copies (by decide) rfl run⟩

/-- The client has its byte after that. -/
theorem upload_returned_byte :
    ∃ first last w',
      Run (transferSystem exampleUsers id id 0) sourceWorld (first :: [] ++ [last]) w' ∧
      w'.files.content (ascii "a") =
        some (overwrite ((last.pre.files.content (ascii "a")).getD []) [7]) := by
  obtain ⟨first, last, w', run, uploaded, downloaded⟩ := exists_byte_session
  exact ⟨first, last, w', run,
    upload_returned (by decide) rfl run uploaded (by simp) (by simp) downloaded rfl⟩

end ConcurrentTcp
