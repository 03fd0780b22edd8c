import ConcurrentTcp.Server.ChangeDirectory
import ConcurrentTcp.Server.SingleName
import ConcurrentTcp.Server.TransferCalls

/-!
The lengths of paths.

The file-open handler formats its path into 512 bytes with `sprintf` and the upload-start
handler with `snprintf`; the current directory goes into a field of 512 bytes with
`strncpy`. None of them refuses what does not fit, and nothing bounds the working
directory, which outgrows the three one request after the other (`reachable_adminAt`).
`paths_intact_iff` says when nothing is lost.
-/

namespace ConcurrentTcp

open Interaction Transition LexicalPath

/-! ### Requests and their paths -/

/-- Nothing is written past an array, and `open` gets the path. -/
def OpensWhole (path : Str) (p : ServerProg HandlerState) : Prop :=
  ∀ events out, Exec p events out → out ≠ .error .undefinedBehaviour ∧
    ∀ e ∈ events, ∀ opened creat, e.op = .openFile opened creat → opened = path

/-- The field of the answer has the directory and its terminator. -/
def SendsWhole (dir : Str) (p : ServerProg HandlerState) : Prop :=
  ∀ events out, Exec p events out → ∀ e ∈ events, ∀ frame, e.op = .send frame →
    dir ++ [0] <+: (frame.drop sizeofPacketHeader).take 512

/-- The paths of a session and a name are neither cut nor overrun. -/
structure PathsIntact (s : HandlerState) (name : Str) (opening starting : ConnectionBuffer) :
    Prop where
  fileOpen : OpensWhole (s.session.path name) (reqFileOpen opening s)
  transferStart : OpensWhole (s.session.path name) (reqFileTransferStart starting s)
  currentDirectory : SendsWhole s.session.currentDir (reqCurrentDirectory s)

section Requests

variable {s : HandlerState} {name : Str} {cb : ConnectionBuffer}

theorem opensWhole_reqFileOpen_iff (hname : PacketDownloadFile.decodePath cb.buffer = some name)
    (valid : isValidFilename name = true) :
    OpensWhole (s.session.path name) (reqFileOpen cb s) ↔
      (s.session.path name).length < sizeofFilePath := by
  constructor
  · intro whole
    by_contra hlong
    have run : Exec (reqFileOpen cb s) [] (.error .undefinedBehaviour) := by
      simp only [reqFileOpen, hname, valid, sprintfPath, if_neg hlong, orUndefined, Prog.ret_bind,
        Prog.fail_bind, Bool.not_true, Bool.false_eq_true, if_false]
      exact .fail _
    exact (whole _ _ run).1 rfl
  · intro hfits events out run
    have hpath : sprintfPath s.session name = some (s.session.path name) := if_pos hfits
    obtain ⟨t, rfl, calls⟩ := (exec_reqFileOpen_iff hname valid hpath).mp run
    refine ⟨by rintro ⟨⟩, ?_⟩
    cases calls <;> simp

theorem opensWhole_reqFileTransferStart_iff
    (hname : PacketTransferFileStart.decodeFileName cb.buffer = some name)
    (valid : isValidFilename name = true) :
    OpensWhole (s.session.path name) (reqFileTransferStart cb s) ↔
      (s.session.path name).length < sizeofFilePath := by
  have hcut : snprintfPath s.session name = s.session.path name ↔
      (s.session.path name).length < sizeofFilePath := by
    rw [snprintfPath, List.take_eq_self_iff, sizeofFilePath]
    omega
  rw [← hcut]
  constructor
  · intro whole
    have run := (exec_reqFileTransferStart_iff (s := s) hname valid).mpr ⟨0, rfl, rfl⟩
    exact (whole _ _ run).2 _ List.mem_cons_self _ _ rfl
  · intro hwhole events out run
    obtain ⟨file, rfl, rfl⟩ := (exec_reqFileTransferStart_iff hname valid).mp run
    refine ⟨by rintro ⟨⟩, ?_⟩
    simp [hwhole]

/-- The field of the current-directory response. -/
theorem currentDir_field (tls : Buffer) (dir : Str) :
    (((createCurrentDirPacket dir tls).read 0 sizeofPacketCurrentDirectory).drop
      sizeofPacketHeader).take 512 = strncpy dir 512 := by
  have hfield : (createCurrentDirPacket dir tls).read 4 512 =
      (tls.write 4 (strncpy dir 512)).read 4 512 := by
    apply Buffer.read_congr
    intro i hi _
    exact Buffer.setHeader_of_le _ _ _ hi
  have hwritten := (tls.read_write 4 (strncpy dir 512))
  rw [length_strncpy] at hwritten
  have hsize : sizeofPacketCurrentDirectory = 4 + 512 := rfl
  rw [hsize, Buffer.read_add, sizeofPacketHeader, List.drop_left' (Buffer.length_read ..),
    List.take_of_length_le (by rw [Buffer.length_read]), Nat.zero_add, hfield, hwritten]

theorem terminated_strncpy_iff {dir : Str} {len : Nat} :
    dir ++ [0] <+: strncpy dir len ↔ dir.length < len := by
  constructor
  · intro hprefix
    have hlen := hprefix.length_le
    rw [length_strncpy, List.length_append, List.length_singleton] at hlen
    omega
  · intro hlt
    obtain ⟨rest, hstored⟩ := strncpy_of_lt hlt
    rw [hstored]
    exact ⟨rest, by simp⟩

theorem sendsWhole_reqCurrentDirectory_iff :
    SendsWhole s.session.currentDir (reqCurrentDirectory s) ↔
      s.session.currentDir.length < 512 := by
  rw [← terminated_strncpy_iff, ← currentDir_field s.tls]
  constructor
  · intro whole
    exact whole _ _ (exec_respond ..) _ List.mem_cons_self _ rfl
  · intro hfits events out run
    obtain ⟨rfl, -⟩ := exec_respond_iff.mp run
    simpa using hfits

end Requests

/-- For every session and every name that is accepted: all paths of the three handlers are whole
exactly when directory, separator and name fit the array of the two file handlers. -/
theorem paths_intact_iff {s : HandlerState} {name : Str} {opening starting : ConnectionBuffer}
    (valid : isValidFilename name = true)
    (hopening : PacketDownloadFile.decodePath opening.buffer = some name)
    (hstarting : PacketTransferFileStart.decodeFileName starting.buffer = some name) :
    PathsIntact s name opening starting ↔
      s.session.currentDir.length + 1 + name.length < 512 := by
  have hpath : (s.session.path name).length = s.session.currentDir.length + 1 + name.length := by
    simp only [Session.path, List.length_append, List.length_cons]
    omega
  have hopen := opensWhole_reqFileOpen_iff (s := s) hopening valid
  have hstart := opensWhole_reqFileTransferStart_iff (s := s) hstarting valid
  rw [hpath, sizeofFilePath] at hopen hstart
  constructor
  · intro intact
    exact hopen.mp intact.fileOpen
  · intro hfits
    exact ⟨hopen.mpr hfits, hstart.mpr hfits, sendsWhole_reqCurrentDirectory_iff.mpr (by omega)⟩

theorem paths_intact_example :
    PathsIntact ⟨rootSession, adminConnected, Buffer.zero⟩ (ascii "a")
      (pathPacket .reqFileOpen (ascii "a"))
      (pathPacket .reqFileTransferStart (List.replicate 16 1 ++ ascii "a")) :=
  (paths_intact_iff (by decide) (by decide) (by decide)).mpr (by decide)

/-! ### A directory that is too long -/

/-- Where every directory is there, names that are entered one after the other. -/
theorem exists_run_cdCommand {id : Str} {names more : List Str} (hid : Named id)
    (hnames : ∀ n ∈ names, Named n) (hmore : ∀ n ∈ more, Named n) (hne : more ≠ []) :
    ∃ events, Exec (cdCommand (userRoot id ++ slashed names) (sjoin more slash)) events
      (.ok (userRoot id ++ slashed (names ++ more))) := by
  have hsplit : (sjoin more slash).splitOn slash = more :=
    List.splitOn_intercalate slash (fun n hn => (hmore n hn).2.1) hne
  have hresolved : ∀ front, resolved front more = front ++ more := by
    unfold resolved
    clear hsplit hne
    induction more with
    | nil => simp [clampedWalk]
    | cons n rest ih =>
        intro front
        obtain ⟨hn, hrest⟩ := List.forall_mem_cons.mp hmore
        have hstep := ih hrest (front ++ [n])
        simp only [clampedWalk, List.map_cons, List.foldl_cons, toMove_named hn,
          clampedMove] at hstep ⊢
        rw [hstep, List.append_assoc, List.singleton_append]
  have hall : (⟨fun _ => true, fun _ => true⟩ : DirectoryTree).walkFrom (rootParts id names) more =
      some (rootParts id (names ++ more)) := by
    rw [walkFrom_rootParts, hresolved]
    exact if_pos fun _ _ => rfl
  have hgives : evaluate (DirectoryTree.answer ⟨fun _ => true, fun _ => true⟩)
      (cdCommand (userRoot id ++ slashed names) (sjoin more slash)) =
        some (userRoot id ++ slashed (names ++ more)) := by
    rw [DirectoryTree.evaluate_cdCommand, ssplit_rootParts hid hnames, hsplit, hall,
      Option.map_some, Option.getD_some, sjoin_rootParts]
  exact exec_of_evaluate hgives

theorem decodePath_pathPacket {ty : PacketType} {path : Str} (hpath : 0 ∉ path)
    (hlen : path.length < 512) :
    PacketCurrentDirectory.decodePath (pathPacket ty path).buffer = some path := by
  obtain ⟨rest, hstored⟩ := strncpy_of_lt hlen
  have hbuffer : (pathPacket ty path).buffer = fun i =>
      ([1, ty.toByte] ++ le16 sizeofPacketCurrentDirectory ++ path ++ 0 :: rest).getD i 0 := by
    unfold ConnectionBuffer.buffer pathPacket
    rw [hstored, List.append_assoc _ path]
  rw [hbuffer]
  exact Buffer.cString_getD _ hpath hlen

/-- The admin of `exampleUsers`, below the own directory. -/
def adminAt (names : List Str) : Session :=
  { rootSession with currentDir := userRoot rootSession.id ++ slashed names }

/-- One request goes down as many names as fit its path. -/
theorem reachable_adminAt {names : List Str} (hnames : ∀ n ∈ names, Named n) (hne : names ≠ [])
    (hzero : 0 ∉ sjoin names slash) (hlen : (sjoin names slash).length < 512) :
    ∃ w, Reachable (sessionSystem exampleUsers) w ∧ w.live 0 = some (adminAt names) := by
  have hid : Named rootSession.id := by decide
  have hdecode : PacketCurrentDirectory.decodePath
      (pathPacket .reqChangeWorkingDirectory (sjoin names slash)).buffer =
        some (sjoin names slash) := decodePath_pathPacket hzero hlen
  obtain ⟨moves, cd⟩ := exists_run_cdCommand hid (List.forall_mem_nil _) hnames hne
  have hdir : userRoot rootSession.id ++ slashed [] = rootSession.currentDir := by decide
  rw [hdir, List.nil_append] at cd
  have run : ∃ events t, Exec (dispatch exampleUsers 0 .reqChangeWorkingDirectory Buffer.zero
      (pathPacket .reqChangeWorkingDirectory (sjoin names slash))
      ⟨rootSession, adminConnected, Buffer.zero⟩) events (.ok t) ∧ t.session = adminAt names := by
    rw [dispatch_authorized hid.1 rfl]
    unfold reqChangeWorkingDirectory
    rw [hdecode]
    have hsome : userRoot rootSession.id ++ slashed names ≠ [] := by simp [userRoot, ascii]
    have answered := exec_respond ⟨adminAt names, adminConnected, Buffer.zero⟩
      (Buffer.zero.setHeader .respOk sizeofSamplePacket) sizeofSamplePacket
    exact ⟨_, _, cd.bind (by rw [if_neg hsome]; exact answered), rfl⟩
  obtain ⟨events, t, run, hsession⟩ := run
  have after := reachable_rootSession.step
    (.packet 0 Buffer.zero events t (SessionState.set_live_self ..) run)
  exact ⟨_, after, by rw [SessionState.set_live_self, hsession]⟩

theorem named_replicate {n : Nat} {b : UInt8} (hn : 2 < n) (hb : b ≠ slash) :
    Named (List.replicate n b) := by
  have hlen : (List.replicate n b).length = n := List.length_replicate
  refine ⟨?_, fun hmem => hb (List.eq_of_mem_replicate hmem).symm, ?_, ?_⟩
  · rintro h
    rw [h] at hlen
    simp at hlen
    omega
  · rintro h
    rw [h] at hlen
    simp [ascii] at hlen
    omega
  · rintro h
    rw [h] at hlen
    simp [ascii] at hlen
    omega

/-- Below two names of 255 bytes, nothing arrives whole. -/
theorem not_paths_intact :
    ∃ w session, Reachable (sessionSystem exampleUsers) w ∧ w.live 0 = some session ∧
      ∀ tls, ¬ PathsIntact ⟨session, w.g, tls⟩ (ascii "a") (pathPacket .reqFileOpen (ascii "a"))
        (pathPacket .reqFileTransferStart (List.replicate 16 1 ++ ascii "a")) := by
  generalize ha : List.replicate 255 (97 : UInt8) = a
  generalize hb : List.replicate 255 (98 : UInt8) = b
  have hnames : ∀ n ∈ [a, b], Named n := by
    rw [← ha, ← hb]
    intro n hn
    simp only [List.mem_cons, List.not_mem_nil, or_false] at hn
    rcases hn with rfl | rfl
    · exact named_replicate (by decide) (by decide)
    · exact named_replicate (by decide) (by decide)
  have hpath : sjoin [a, b] slash = a ++ slash :: b := by simp [sjoin]
  have hlen : (sjoin [a, b] slash).length = 511 := by
    rw [hpath, ← ha, ← hb]
    simp only [List.length_append, List.length_cons, List.length_replicate]
  have hzero : 0 ∉ sjoin [a, b] slash := by
    rw [hpath, ← ha, ← hb, List.mem_append, List.mem_cons]
    rintro (hmem | hmem | hmem)
    · exact absurd (List.eq_of_mem_replicate hmem) (by decide)
    · exact absurd hmem (by decide)
    · exact absurd (List.eq_of_mem_replicate hmem) (by decide)
  obtain ⟨w, reached, hlive⟩ := reachable_adminAt hnames (by simp) hzero (by omega)
  refine ⟨w, _, reached, hlive, fun tls intact => ?_⟩
  have hfits := sendsWhole_reqCurrentDirectory_iff.mp intact.currentDirectory
  have hdir : (adminAt [a, b]).currentDir =
      userRoot rootSession.id ++ slash :: sjoin [a, b] slash := by
    simp [adminAt, hpath]
  dsimp only at hfits
  rw [hdir, List.length_append, List.length_cons, hlen] at hfits
  omega

end ConcurrentTcp
