import ConcurrentTcp.Server.Lockstep

/-!
One request, one response.

The operation of a request fails when a call of its handler fails. Most failures are
looked at and answered with an error; the others go unreported. `one_response` is
about the lockstep runs in which nothing fails unreported, and in which the two
handlers that send too much do not come to it.
-/

namespace ConcurrentTcp

open Interaction Transition

/-! ### Failed calls -/

/-- A failed call of a compression back end that the back end looks at. -/
def libraryFailureReported : (call : CompressionCall) → call.Answer → Bool
  | .fopen _ _, (opened : Bool) => !opened
  | .zstdCreateCCtx, (made : Bool) => !made
  | .zstdCompressCCtx _ _, (out : Option (List UInt8)) => out.isNone
  | .gzdopen _, (opened : Bool) => !opened
  | .gzwrite _, (written : Bool) => !written
  | .lzmaEasyEncoder _, (made : Bool) => !made
  | .lzmaCode .run _, (step : LzmaStep) => step.ret != .ok
  | .lzmaCode .finish _, (step : LzmaStep) => step.ret == .error
  | .lz4CompressDefault _, (out : Option (List UInt8)) => out.isNone
  | .zipOpen _, (opened : Bool) => !opened
  | .zipSourceFile _, (made : Bool) => !made
  | .zipFileAdd _, (added : Bool) => !added
  | _, _ => false

/-- One that it does not look at. The level of an archive may stay unset. -/
def libraryFailureUnreported : (call : CompressionCall) → call.Answer → Bool
  | .archiveWriteOpenFilename _, (opened : Bool) => !opened
  | .archiveWriteHeader _ _, (written : Bool) => !written
  | .archiveWriteData _, (written : Bool) => !written
  | .archiveWriteClose, (closed : Bool) => !closed
  | .fread _, (result : FreadResult) => result == .error
  | .fwrite _ _, (written : Bool) => !written
  | .fclose _, (closed : Bool) => !closed
  | .gzclose, (closed : Bool) => !closed
  | .zipClose, (closed : Bool) => !closed
  | _, _ => false

/-- A failed call that its handler looks at. -/
def failureReported : ServerEvent → Bool
  | ⟨.removeAll _, .ok removed⟩ => removed == 0
  | ⟨.mkdir _, (made : Bool)⟩ => !made
  | ⟨.pathExists _, .ok found⟩ => !found
  | ⟨.isDirectory _, .ok directory⟩ => !directory
  | ⟨.openFile _ false, (file : Int)⟩ => file < 0
  | ⟨.fstat _, none⟩ => true
  | ⟨.close _, (closed : Int)⟩ => closed < 0
  | ⟨.rename _ _, .error _⟩ => true
  | ⟨.copyFile _ _, .ok copied⟩ => !copied
  | ⟨.compression call, ans⟩ => libraryFailureReported call ans
  | _ => false

/-- A failed call that its handler does not look at: `open` and `write` of an upload,
`read` of a download, and what a back end ignores. -/
def failureUnreported : ServerEvent → Bool
  | ⟨.openFile _ true, (file : Int)⟩ => file < 0
  | ⟨.write _ _ count, (written : Int)⟩ => written != count
  | ⟨.read _ _, none⟩ => true
  | ⟨.compression call, ans⟩ => libraryFailureUnreported call ans
  | _ => false

/-- A failed call. `remove` is not one: a path that is not a file may be a directory.
Nor is `opendir`: without a directory there are no files to list. -/
def callFailed (e : ServerEvent) : Bool :=
  threw e || seekFailed e || failureReported e || failureUnreported e

/-- The handler works on a descriptor of the session, and there is none. -/
def NoFileOpen (session : Session) : PacketType → Prop
  | .reqFileDownloadChunk | .reqFileClose => session.downloadFd ≤ 0
  | .reqFileTransferChunk | .reqFileTransferEnd => session.fd ≤ 0
  | _ => False

/-- The operation of a request failed. A login does not fail with its `mkdir`: the
directory is there from the second login on. -/
def OperationFailed (session : Session) (events : List ServerEvent) (ty : PacketType) : Prop :=
  NoFileOpen session ty ∨ ty ≠ .reqLogin ∧ ∃ e ∈ events, callFailed e = true

/-! ### Back ends -/

section BackEnds

variable {α β : Type} {fuel : Nat} {good : β → Prop}

/-- Each failure that is looked at leads to a result that is not good. -/
abbrev Telling (good : α → Prop) (p : ServerProg α) : Prop := Reports failureReported good p

theorem telling_sys {op : SysCall} {f : op.Answer → ServerProg β}
    (here : ∀ ans, failureReported ⟨op, ans⟩ = false) (later : ∀ ans, Telling good (f ans)) :
    Telling good (sys op >>= f) := by
  apply Reports.call _ later
  intro ans failed
  rw [here] at failed
  cases failed

theorem telling_call {op : SysCall} {f : op.Answer → ServerProg β}
    (here : ∀ ans, failureReported ⟨op, ans⟩ = true → Rejects good (f ans))
    (later : ∀ ans, Telling good (f ans)) : Telling good (sys op >>= f) :=
  Reports.call here later

theorem telling_lib {call : CompressionCall} {f : call.Answer → ServerProg β}
    (here : ∀ ans, libraryFailureReported call ans = true → Rejects good (f ans))
    (later : ∀ ans, Telling good (f ans)) : Telling good (lib call >>= f) :=
  Reports.call here later

/-- A back end that gives up. -/
structure GivesUp (p : ServerProg Bool) : Prop where
  rejects : Rejects (· = true) p
  telling : Telling (· = true) p

theorem givesUp_ret : GivesUp (.ret false) := ⟨.ret (by simp), .ret _⟩

theorem givesUp_sys {op : SysCall} {f : op.Answer → ServerProg Bool}
    (here : ∀ ans, failureReported ⟨op, ans⟩ = false) (later : ∀ ans, GivesUp (f ans)) :
    GivesUp (sys op >>= f) :=
  ⟨.bind fun ans => (later ans).rejects, telling_sys here fun ans => (later ans).telling⟩

/-- A call whose failure makes the back end give up. -/
theorem telling_guard {call : CompressionCall} {failed : call.Answer → Bool}
    {giveUp : ServerProg Bool} {rest : call.Answer → ServerProg Bool}
    (here : ∀ ans, libraryFailureReported call ans = true → failed ans = true)
    (gives : GivesUp giveUp) (later : ∀ ans, Telling (· = true) (rest ans)) :
    Telling (· = true) (lib call >>= fun ans => if failed ans then giveUp else rest ans) := by
  apply telling_lib
  · intro ans reported
    rw [here ans reported]
    exact gives.rejects
  · intro ans
    split
    · exact gives.telling
    · exact later ans

theorem telling_closeAll (paths : List Str) : Telling (fun _ => True) (closeAll paths) :=
  .foldlM (fun _ _ => telling_sys (fun _ => rfl) fun _ => .ret _) ()

theorem givesUp_closeAll (paths : List Str) : GivesUp (closeAll paths >>= fun _ => .ret false) :=
  ⟨.bind fun _ => givesUp_ret.rejects, .seq (telling_closeAll paths) fun _ => .ret _⟩

/-- A loop that is stopped by a failure. -/
theorem telling_whileFread {good : Bool → Prop} {path : Str} {body : List UInt8 → ServerProg Bool}
    {rounds : Nat} (hbody : ∀ bytes, Telling good (body bytes)) (htrue : good true) :
    Telling good (whileFread path body rounds) := by
  induction rounds with
  | zero => exact .fail _
  | succ rounds ih =>
      apply telling_sys (fun _ => rfl)
      intro block
      match block with
      | .block (b :: bs) =>
          apply Reports.bind (hbody (b :: bs))
          · rintro (_ | _) hstop
            · exact .ret hstop
            · exact absurd htrue hstop
          · intro goOn
            split
            · exact ih
            · exact .ret _
      | .block [] => exact .ret _
      | .eof => exact .ret _
      | .error => exact .ret _

/-- A file that does not open is read nonetheless. -/
theorem telling_addTarEntry (path : Str) : Telling (fun _ => True) (addTarEntry fuel path) := by
  apply telling_sys (fun _ => rfl)
  rintro (⟨⟩ | size)
  · exact .fail _
  apply telling_sys (fun _ => rfl)
  intro _
  apply telling_lib
  · rintro (_ | _) failed
    · exact .fail _
    · cases failed
  rintro (_ | _)
  · exact .fail _
  apply Reports.seq
  · refine telling_whileFread ?_ trivial
    exact fun _ => telling_sys (fun _ => rfl) fun _ => .ret _
  · exact fun _ => telling_sys (fun _ => rfl) fun _ => .ret _

theorem telling_createTarArchive (files : List Str) (tarPath : Str) :
    Telling (fun _ => True) (createTarArchive fuel files tarPath) := by
  apply telling_sys (fun _ => rfl)
  intro _
  apply Reports.seq
  · exact .foldlM (fun _ path => telling_addTarEntry path) ()
  · exact fun _ => telling_sys (fun _ => rfl) fun _ => .ret _

/-- What the back ends of the tar archives have in common. -/
theorem telling_tarBackEnd {files : List Str} {tarPath archivePath : Str}
    {rest : Bool → ServerProg Bool} (later : ∀ opened, Telling (· = true) (rest opened)) :
    Telling (· = true) (do
      let made ← createTarArchive fuel files tarPath
      if !made then .ret false
      else
        let archiveFile : Bool ← lib (.fopen archivePath .wb)
        if !archiveFile then .ret false else rest archiveFile) := by
  apply Reports.seq (telling_createTarArchive files tarPath)
  intro made
  split
  · exact .ret _
  · exact telling_guard (fun _ h => h) givesUp_ret later

/-- The end of a back end, after its last loop. -/
theorem telling_finished {finished : Bool} {path : Str} :
    Telling (· = true)
      (if !finished then .ret false else (sys (.remove path) >>= fun _ => .ret true)) := by
  split
  · exact .ret _
  · exact telling_sys (fun _ => rfl) fun _ => .ret _

theorem rejects_finished {path : Str} {finished : Bool} (h : ¬ finished = true) :
    Rejects (· = true)
      (if !finished then .ret false else (sys (.remove path) >>= fun _ => .ret true)) := by
  rw [if_pos (by simpa using h)]
  exact givesUp_ret.rejects

/-- The loop over the tar file, and what follows it. -/
theorem telling_blocks {body : List UInt8 → ServerProg Bool} {rounds : Nat} {tarPath : Str}
    (paths : List Str) (hbody : ∀ bytes, Telling (· = true) (body bytes)) :
    Telling (· = true) (do
      let finished ← whileFread tarPath body rounds
      closeAll paths
      if !finished then .ret false
      else
        let _ ← sys (.remove tarPath)
        .ret true) := by
  apply Reports.bind (telling_whileFread hbody rfl)
  · exact fun finished hfinished => .bind fun _ => rejects_finished hfinished
  · exact fun finished => .seq (telling_closeAll paths) fun _ => telling_finished

theorem telling_compressWithZstd (files : List Str) (archiveBasePath : Str) (level : Int) :
    Telling (· = true) (compressWithZstd fuel files archiveBasePath level) := by
  apply telling_tarBackEnd
  intro _
  apply telling_guard (fun _ h => h) (givesUp_closeAll _)
  intro _
  apply telling_guard (fun _ h => h) (givesUp_closeAll _)
  intro _
  apply telling_blocks
  intro bytes
  apply telling_lib
  · rintro (_ | out) failed
    · exact givesUp_ret.rejects
    · cases failed
  · rintro (_ | out)
    · exact .ret _
    · exact telling_sys (fun _ => rfl) fun _ => .ret _

theorem telling_compressWithGzip (files : List Str) (archiveBasePath : Str) (level : Int) :
    Telling (· = true) (compressWithGzip fuel files archiveBasePath level) := by
  apply telling_tarBackEnd
  intro _
  apply telling_guard (fun _ h => h) (givesUp_closeAll _)
  intro _
  apply telling_sys (fun _ => rfl)
  intro _
  apply telling_guard (fun _ h => h) (givesUp_sys (fun _ => rfl) fun _ => givesUp_ret)
  intro _
  apply Reports.bind (g := (· = true))
  · refine telling_whileFread ?_ rfl
    intro bytes
    apply Reports.call
    · rintro (_ | _) failed
      · exact givesUp_ret.rejects
      · cases failed
    · exact fun _ => .ret _
  · exact fun finished hfinished => .bind fun _ => .bind fun _ => rejects_finished hfinished
  · intro finished
    apply Reports.seq (telling_closeAll _)
    intro _
    exact telling_sys (fun _ => rfl) fun _ => telling_finished

theorem telling_lzmaRun {archivePath : Str} {rounds : Nat} (input : List UInt8) :
    Telling (· = true) (lzmaRun archivePath input rounds) := by
  induction rounds generalizing input with
  | zero => exact .fail _
  | succ rounds ih =>
      apply telling_lib
      · intro (step : LzmaStep) failed
        have stopped : step.ret ≠ .ok := by simpa [libraryFailureReported] using failed
        rw [if_pos stopped]
        exact givesUp_ret.rejects
      intro (step : LzmaStep)
      split
      · exact .ret _
      apply telling_sys (fun _ => rfl)
      intro _
      split
      · exact .ret _
      · exact ih _

theorem telling_lzmaFinish {archivePath : Str} {rounds : Nat} :
    Telling (· = .streamEnd) (lzmaFinish archivePath rounds) := by
  induction rounds with
  | zero => exact .fail _
  | succ rounds ih =>
      apply telling_lib
      · intro (step : LzmaStep) failed
        have hret : step.ret = .error := by simpa [libraryFailureReported] using failed
        apply Rejects.bind
        intro _
        rw [if_neg (by simp [hret]), hret]
        exact .ret (by simp)
      intro (step : LzmaStep)
      apply telling_sys (fun _ => rfl)
      intro _
      split
      · exact ih
      · exact .ret _

theorem telling_compressWithXz (files : List Str) (archiveBasePath : Str) (level : Int) :
    Telling (· = true) (compressWithXz fuel files archiveBasePath level) := by
  apply telling_tarBackEnd
  intro _
  apply telling_guard (fun _ h => h) (givesUp_closeAll _)
  intro _
  apply telling_guard (fun _ h => h) (givesUp_closeAll _)
  intro _
  apply Reports.bind (g := (· = true)) (telling_whileFread (fun _ => telling_lzmaRun _) rfl)
  · intro finished hfinished
    rw [if_pos (by simpa using hfinished)]
    exact (givesUp_closeAll _).rejects
  intro finished
  split
  · exact (givesUp_closeAll _).telling
  apply Reports.seq (telling_closeAll _)
  intro _
  apply Reports.bind telling_lzmaFinish
  · intro ret hret
    apply Rejects.bind
    intro _
    apply Rejects.bind
    intro _
    exact .ret (by simpa using hret)
  intro ret
  apply Reports.seq (telling_closeAll _)
  intro _
  exact telling_sys (fun _ => rfl) fun _ => .ret _

theorem telling_compressWithLz4 (files : List Str) (archiveBasePath : Str) (level : Int) :
    Telling (· = true) (compressWithLz4 fuel files archiveBasePath level) := by
  apply telling_tarBackEnd
  intro _
  apply telling_guard (fun _ h => h) (givesUp_closeAll _)
  intro _
  apply telling_blocks
  intro bytes
  apply telling_lib
  · rintro (_ | out) failed
    · exact givesUp_ret.rejects
    · cases failed
  · rintro (_ | out)
    · exact .ret _
    · exact telling_sys (fun _ => rfl) fun _ => .ret _

theorem telling_addZipEntries (level : Int) (files : List Str) :
    Telling (· = true) (addZipEntries level files) := by
  induction files with
  | nil => exact .ret _
  | cons path rest ih =>
      apply telling_guard (fun _ h => h) givesUp_ret
      intro _
      apply telling_guard (fun _ h => h) givesUp_ret
      intro _
      exact telling_sys (fun _ => rfl) fun _ => ih

theorem telling_compressWithZip (files : List Str) (archiveBasePath : Str) (level : Int) :
    Telling (· = true) (compressWithZip files archiveBasePath level) := by
  apply telling_guard (fun _ h => h) givesUp_ret
  intro _
  apply Reports.bind (telling_addZipEntries level files)
  · exact fun added hadded => .bind fun _ => .ret hadded
  · exact fun added => telling_sys (fun _ => rfl) fun _ => .ret _

theorem telling_compressWith (format : Option Format) (files : List Str) (archivePath : Str)
    (level : Int) : Telling (· = true) (compressWith fuel format files archivePath level) := by
  unfold compressWith
  split
  · exact telling_compressWithZstd _ _ _
  · exact telling_compressWithGzip _ _ _
  · exact telling_compressWithXz _ _ _
  · exact telling_compressWithXz _ _ _
  · exact telling_compressWithLz4 _ _ _
  · exact telling_compressWithZip _ _ _
  · exact .ret _

end BackEnds

/-! ### Paths and files -/

section Io

theorem telling_doesFileExist (path : Str) : Telling (· = true) (doesFileExist path) := by
  apply telling_call
  · rintro (⟨⟩ | (_ | _)) failed
    · cases failed
    · exact givesUp_ret.rejects
    · cases failed
  · rintro (⟨⟩ | found)
    · exact .fail _
    · exact .ret _

theorem telling_cdParts (pathParts parts : List Str) :
    Telling (· ≠ []) (cdParts pathParts parts) := by
  induction parts generalizing pathParts with
  | nil => exact .ret _
  | cons part rest ih =>
      unfold cdParts
      split
      · exact ih _
      split
      · apply telling_call
        · rintro (⟨⟩ | (_ | _)) failed
          · cases failed
          · exact .ret (by simp)
          · cases failed
        rintro (⟨⟩ | (_ | _))
        · exact .fail _
        · exact .ret _
        apply telling_call
        · rintro (⟨⟩ | (_ | _)) failed
          · cases failed
          · exact .ret (by simp)
          · cases failed
        rintro (⟨⟩ | (_ | _))
        · exact .fail _
        · exact .ret _
        · exact ih _
      · exact ih _

theorem telling_removeDirectory (path : Str) : Telling (· = true) (removeDirectory path) := by
  apply telling_call
  · rintro (⟨⟩ | removed) failed
    · cases failed
    · have none : removed = 0 := by simpa [failureReported] using failed
      exact .ret (by simp [none])
  · rintro (⟨⟩ | removed)
    · exact .fail _
    · exact .ret _

theorem telling_cleanEntries (userDir : Str) (entries : List DirEntry) :
    Telling (· = true) (cleanEntries userDir entries) := by
  induction entries with
  | nil => exact .ret _
  | cons entry rest ih =>
      unfold cleanEntries
      split
      · apply Reports.bind (telling_removeDirectory _)
        · intro removed hremoved
          rw [if_neg hremoved]
          exact givesUp_ret.rejects
        · intro removed
          split
          · exact ih
          · exact .ret _
      · exact ih

theorem telling_moveFile (source destination : Str) :
    Telling (· = true) (moveFile source destination) := by
  apply telling_call
  · rintro (e | ⟨⟩) failed
    · exact givesUp_ret.rejects
    · cases failed
  · rintro (e | ⟨⟩)
    · exact .ret _
    · exact .ret _

theorem telling_copyFile (source destination : Str) :
    Telling (· = true) (sys (.copyFile source destination) >>= fun r => orThrow r) := by
  apply telling_call
  · rintro (⟨⟩ | (_ | _)) failed
    · cases failed
    · exact givesUp_ret.rejects
    · cases failed
  · rintro (⟨⟩ | copied)
    · exact .fail _
    · exact .ret _

theorem telling_listedFiles (session : Session) (p : Buffer) (files : List Str) (is : List Nat) :
    Telling (·.isSome = true) (listedFiles session p files is) := by
  induction is generalizing files with
  | nil => exact .ret _
  | cons i rest ih =>
      unfold listedFiles
      cases PacketCompress.fileName p i with
      | none => exact .fail _
      | some name =>
          apply Reports.bind (telling_doesFileExist _)
          · intro found hfound
            rw [if_pos (by simpa using hfound)]
            exact .ret (by simp)
          · intro found
            split
            · exact .ret _
            · exact ih _

theorem telling_filesToCompress (session : Session) (p : Buffer) :
    Telling (·.isSome = true) (filesToCompress session p) := by
  unfold filesToCompress
  split
  · apply telling_sys (fun _ => rfl)
    rintro (⟨⟩ | entries)
    · exact .fail _
    · exact .ret _
  · exact telling_listedFiles session p [] _

/-- A directory that does not open has no files. -/
theorem telling_createFileListPacket (currentDir : Str) (p : Buffer) :
    Telling (fun _ => True) (createFileListPacket currentDir p) := by
  have listed : Telling (fun _ => True) (writeUserFileList currentDir p) := by
    apply telling_sys (fun _ => rfl)
    rintro (_ | names)
    · exact .ret _
    · exact .ret _
  exact .seq listed fun _ => .ret _

end Io

/-! ### Answers -/

/-- A run that returns has answered with an error. -/
def AnswersError (p : ServerProg HandlerState) : Prop :=
  Traces (fun events out => ∀ t, out = .ok t →
    ∃ tls, sends events = [sampleFrame tls .respIoError]) p

/-- A run that returns has answered each reported failure with an error. -/
def AnswersFailure (p : ServerProg HandlerState) : Prop :=
  Traces (fun events out => ∀ t, out = .ok t → (∃ e ∈ events, failureReported e = true) →
    ∃ tls, sends events = [sampleFrame tls .respIoError]) p

section Answers

variable {α : Type} {fuel : Nat} {p : ServerProg α} {f : α → ServerProg HandlerState} {g : α → Prop}

theorem answersError_sample (s : HandlerState) : AnswersError (sendSampleResp s .respIoError) := by
  intro events out run t _
  obtain ⟨rfl, -⟩ := exec_sendSampleResp_iff.mp run
  exact ⟨s.tls, rfl⟩

theorem answersFailure_respond (s : HandlerState) (p : Buffer) (length : Nat) :
    AnswersFailure (s.respond p length) := by
  intro events out run t _ failed
  obtain ⟨rfl, -⟩ := exec_respond_iff.mp run
  simp [failureReported] at failed

theorem answersFailure_sample (s : HandlerState) (answer : PacketType) :
    AnswersFailure (sendSampleResp s answer) :=
  answersFailure_respond s _ _

theorem answersError_bind (quiet : Judged (Proceeds fuel True) p)
    (later : ∀ a, AnswersError (f a)) : AnswersError (p >>= f) := by
  apply Traces.bind
  intro events out run
  cases out with
  | error e =>
      rintro t ⟨⟩
  | ok a =>
      intro rest end_ tail t hend
      rw [sends_append, (quiet events _ run).1, List.nil_append]
      exact later a rest end_ tail t hend

/-- The answer that depends on what came before. -/
theorem answersFailure_bind (quiet : Judged (Proceeds fuel True) p) (telling : Telling g p)
    (bad : ∀ a, ¬ g a → AnswersError (f a)) (later : ∀ a, AnswersFailure (f a)) :
    AnswersFailure (p >>= f) := by
  apply Traces.bind
  intro events out run
  cases out with
  | error e =>
      rintro t ⟨⟩
  | ok a =>
      intro rest end_ tail t hend failed
      have hsends : sends (events ++ rest) = sends rest := by
        rw [sends_append, (quiet events _ run).1, List.nil_append]
      rw [hsends]
      by_cases hgood : g a
      · have fine := telling events _ run a rfl hgood
        apply later a rest end_ tail t hend
        obtain ⟨e, hmem, he⟩ := failed
        refine ⟨e, (List.mem_append.mp hmem).resolve_left fun hfirst => ?_, he⟩
        rw [fine e hfirst] at he
        cases he
      · exact bad a hgood rest end_ tail t hend

theorem answersFailure_sys {op : SysCall} {f : op.Answer → ServerProg HandlerState}
    (h : op.plain = true) (bad : ∀ ans, failureReported ⟨op, ans⟩ = true → AnswersError (f ans))
    (later : ∀ ans, AnswersFailure (f ans)) : AnswersFailure (sys op >>= f) := by
  have quiet : Judged (Proceeds 0 True) (sys op) := proceeds_sys h proceeds_ret
  apply answersFailure_bind (g := fun ans => failureReported ⟨op, ans⟩ = false) quiet
  · apply Reports.call
    · intro ans failed
      exact .ret (by simp [failed])
    · exact fun ans => .ret ans
  · exact fun ans failed => bad ans (by simpa using failed)
  · exact later

theorem answersFailure_orUndefined {a : Option α} (later : ∀ x, AnswersFailure (f x)) :
    AnswersFailure (orUndefined a >>= f) := by
  cases a with
  | none =>
      apply Traces.fail
      rintro t ⟨⟩
  | some x => exact later x

/-- `weakly_canonical` throws when it fails. -/
theorem answersFailure_canonical {path : Str} {f : FsPath → ServerProg HandlerState}
    (later : ∀ p, AnswersFailure (f p)) :
    AnswersFailure (sys (.weaklyCanonical path) >>= fun r => orThrow r >>= f) := by
  have quiet : Judged (Proceeds 0 True) (sys (.weaklyCanonical path) >>= fun r => orThrow r) := by
    apply proceeds_throwing
    rintro (⟨⟩ | p)
    · exact ⟨rfl, .inr ⟨rfl, rfl⟩⟩
    · exact ⟨rfl, .inl ⟨rfl, proceeds_ret p⟩⟩
  have telling : Telling (fun _ => True)
      (sys (.weaklyCanonical path) >>= fun r => orThrow r) := by
    apply telling_sys (fun _ => rfl)
    rintro (⟨⟩ | p)
    · exact .fail _
    · exact .ret p
  exact answersFailure_bind (p := sys (.weaklyCanonical path) >>= fun r => orThrow r) quiet telling
    (fun _ h => absurd trivial h) later

/-- The check of a path throws when it fails. -/
theorem answersFailure_inside {path userDir : Str} {f : Bool → ServerProg HandlerState}
    (later : ∀ inside, AnswersFailure (f inside)) :
    AnswersFailure (isPathWithinUserDir path userDir >>= f) := by
  have quiet : Judged (Proceeds 0 True) (isPathWithinUserDir path userDir) :=
    proceeds_isPathWithinUserDir _ _
  have telling : Telling (fun _ => True) (isPathWithinUserDir path userDir) := by
    apply telling_sys (fun _ => rfl)
    rintro (⟨⟩ | canonicalPath)
    · exact .fail _
    apply telling_sys (fun _ => rfl)
    rintro (⟨⟩ | canonicalUserDir)
    · exact .fail _
    · exact .ret _
  exact answersFailure_bind quiet telling (fun _ h => absurd trivial h) later

/-- A program that tells of its failures by its result, and the answer to this. -/
theorem answersFailure_flag {p : ServerProg Bool} {s : HandlerState} {answer : PacketType}
    (quiet : Judged (Proceeds fuel True) p) (telling : Telling (· = true) p) :
    AnswersFailure
      (p >>= fun done => sendSampleResp s (if done then answer else .respIoError)) := by
  apply answersFailure_bind quiet telling
  · intro done failed
    rw [if_neg failed]
    exact answersError_sample s
  · exact fun done => answersFailure_sample s _

theorem answersFailure_transferPath {operation : Str → Str → ServerProg Bool}
    (quiet : ∀ source destination, Judged (Proceeds 0 True) (operation source destination))
    (telling : ∀ source destination, Telling (· = true) (operation source destination))
    (cb : ConnectionBuffer) (s : HandlerState) : AnswersFailure (transferPath operation cb s) := by
  apply answersFailure_orUndefined
  intro inPacket
  apply answersFailure_canonical
  intro userDirPath
  apply answersFailure_canonical
  intro currentDirPath
  apply answersFailure_canonical
  intro source
  apply answersFailure_canonical
  intro destination
  apply answersFailure_inside
  intro sourceInside
  split
  · exact answersFailure_sample _ _
  apply answersFailure_inside
  intro destinationInside
  split
  · exact answersFailure_sample _ _
  · exact answersFailure_flag (quiet _ _) (telling _ _)

theorem answersFailure_reqClean (s : HandlerState) : AnswersFailure (reqClean s) := by
  unfold reqClean
  split
  · exact answersFailure_sample _ _
  have quiet : Judged (Proceeds 0 True)
      (sys (.directoryIterator (ascii "./tmp/")) >>= fun r => orThrow r) := by
    apply proceeds_throwing
    rintro (⟨⟩ | entries)
    · exact ⟨rfl, .inr ⟨rfl, rfl⟩⟩
    · exact ⟨rfl, .inl ⟨rfl, proceeds_ret entries⟩⟩
  have telling : Telling (fun _ => True)
      (sys (.directoryIterator (ascii "./tmp/")) >>= fun r => orThrow r) := by
    apply telling_sys (fun _ => rfl)
    rintro (⟨⟩ | entries)
    · exact .fail _
    · exact .ret entries
  apply answersFailure_bind (p := sys (.directoryIterator (ascii "./tmp/")) >>= fun r => orThrow r)
    quiet telling (fun _ h => absurd trivial h)
  intro entries
  have quiet : Judged (Proceeds 0 True) (cleanEntries (ascii "./tmp/") entries) :=
    proceeds_cleanEntries _ _
  exact answersFailure_flag quiet (telling_cleanEntries _ _)

theorem answersFailure_reqChangeWorkingDirectory (cb : ConnectionBuffer) (s : HandlerState) :
    AnswersFailure (reqChangeWorkingDirectory cb s) := by
  apply answersFailure_orUndefined
  intro path
  have quiet : Judged (Proceeds 0 True) (cdCommand s.session.currentDir path) :=
    proceeds_cdParts _ _
  apply answersFailure_bind quiet (telling_cdParts _ _)
  · intro newDir failed
    rw [if_pos (not_ne_iff.mp failed)]
    exact answersError_sample s
  · intro newDir
    split
    · exact answersFailure_sample _ _
    · exact answersFailure_sample _ _

theorem answersFailure_reqRemovePath (cb : ConnectionBuffer) (s : HandlerState) :
    AnswersFailure (reqRemovePath cb s) := by
  apply answersFailure_orUndefined
  intro name
  split
  · exact answersFailure_sample _ _
  apply answersFailure_sys rfl (fun _ failed => by cases failed)
  intro (file : Bool)
  split
  · exact answersFailure_sample _ _
  have quiet : Judged (Proceeds 0 True) (removeDirectory (s.session.path name)) :=
    proceeds_removeDirectory _
  exact answersFailure_flag quiet (telling_removeDirectory _)

theorem answersFailure_reqMkdir (cb : ConnectionBuffer) (s : HandlerState) :
    AnswersFailure (reqMkdir cb s) := by
  apply answersFailure_orUndefined
  intro name
  split
  · exact answersFailure_sample _ _
  apply answersFailure_sys rfl
  · rintro (_ | _) failed
    · exact answersError_sample s
    · cases failed
  · exact fun made => answersFailure_sample s _

theorem answersFailure_reqFileOpen (cb : ConnectionBuffer) (s : HandlerState) :
    AnswersFailure (reqFileOpen cb s) := by
  apply answersFailure_orUndefined
  intro name
  split
  · exact answersFailure_sample _ _
  apply answersFailure_orUndefined
  intro filePath
  apply answersFailure_sys rfl
  · intro (file : Int) failed
    have hfile : file < 0 := by simpa [failureReported] using failed
    rw [if_pos (by omega)]
    exact answersError_sample s
  intro (file : Int)
  split
  · exact answersFailure_sample _ _
  apply answersFailure_sys rfl
  · rintro (_ | fileSize) failed
    · exact answersError_sample s
    · cases failed
  · rintro (_ | fileSize)
    · exact answersFailure_sample _ _
    · exact answersFailure_respond _ _ _

/-- A file that was not closed is closed again. -/
theorem answersFailure_reqFileClose (s : HandlerState) : AnswersFailure (reqFileClose s) := by
  have again : AnswersError (sys (.close s.session.downloadFd) >>= fun _ =>
      sendSampleResp { s with session := { s.session with downloadFd := 0 } } .respIoError) := by
    have quiet : Judged (Proceeds 0 True) (sys (.close s.session.downloadFd)) :=
      proceeds_sys rfl proceeds_ret
    exact answersError_bind quiet fun _ => answersError_sample _
  apply answersFailure_sys rfl
  · intro (closed : Int) failed
    have hclosed : closed < 0 := by simpa [failureReported] using failed
    rw [if_pos hclosed]
    exact again
  intro (closed : Int)
  split
  · exact fun events out run t hout _ => again events out run t hout
  · exact answersFailure_sample _ _

theorem answersFailure_reqCompress (cb : ConnectionBuffer) (s : HandlerState) :
    AnswersFailure (reqCompress fuel cb s) := by
  apply answersFailure_orUndefined
  intro archiveName
  have quiet : Judged (Proceeds fuel True) (filesToCompress s.session cb.buffer) :=
    proceeds_filesToCompress trivial _ _
  apply answersFailure_bind quiet (telling_filesToCompress _ _)
  · rintro (_ | files) failed
    · exact answersError_sample s
    · exact absurd rfl failed
  · rintro (_ | files)
    · exact answersFailure_sample _ _
    · exact answersFailure_flag (proceeds_compressWith trivial _ _ _ _)
        (telling_compressWith _ _ _ _)

/-- A handler whose calls are not looked at, or that makes none. -/
theorem answersFailure_quiet {p : ServerProg α} {f : α → ServerProg HandlerState}
    (quiet : Judged (Proceeds 0 True) p) (telling : Telling (fun _ => True) p)
    (later : ∀ a, AnswersFailure (f a)) : AnswersFailure (p >>= f) :=
  answersFailure_bind quiet telling (fun _ h => absurd trivial h) later

/-- Every handler answers the failures that it looks at. The chunk handler answers
them twice. -/
theorem handlers_answerFailure {users : DatabaseHandler} {receiveBuffer : Buffer}
    {cb : ConnectionBuffer} {ty : PacketType} {handler : HandlerState → ServerProg HandlerState}
    (h : handlers users fuel receiveBuffer cb ty = some handler) (hlogin : ty ≠ .reqLogin)
    (hchunk : ty ≠ .reqFileDownloadChunk) (s : HandlerState) : AnswersFailure (handler s) := by
  cases ty, handler, h using handlers_cases with
  | reqServerStatus =>
      unfold reqServerStatus
      split
      · exact answersFailure_sample _ _
      · apply answersFailure_quiet (proceeds_createServerStatusPacket _)
        · exact telling_sys (fun _ => rfl) fun _ => telling_sys (fun _ => rfl) fun _ =>
            telling_sys (fun _ => rfl) fun _ => .ret _
        · exact fun _ => answersFailure_respond _ _ _
  | reqConnectionsInfo =>
      unfold reqConnectionsInfo
      split
      · exact answersFailure_sample _ _
      · apply answersFailure_quiet (proceeds_createConnectionsInfoPacket _)
        · exact telling_sys (fun _ => rfl) fun _ => .ret _
        · exact fun _ => answersFailure_respond _ _ _
  | reqCrcVerify =>
      apply Traces.ret
      simp
  | reqLogout => exact answersFailure_sample _ _
  | reqCurrentDirectory => exact answersFailure_respond _ _ _
  | reqRemovePath => exact answersFailure_reqRemovePath cb s
  | reqMkdir => exact answersFailure_reqMkdir cb s
  | reqChangeWorkingDirectory => exact answersFailure_reqChangeWorkingDirectory cb s
  | reqFileOpen => exact answersFailure_reqFileOpen cb s
  | reqFileDownloadChunk => exact absurd rfl hchunk
  | reqFileClose => exact answersFailure_reqFileClose s
  | reqMoveFile => exact answersFailure_transferPath proceeds_moveFile telling_moveFile cb s
  | reqCopyFile => exact answersFailure_transferPath proceeds_copyFile telling_copyFile cb s
  | reqPing => exact answersFailure_sample _ _
  | reqGetCurrentUser => exact answersFailure_respond _ _ _
  | reqFileTransferStart =>
      apply answersFailure_orUndefined
      intro name
      split
      · exact answersFailure_sample _ _
      · exact answersFailure_sys rfl (fun _ failed => by cases failed) fun _ =>
          answersFailure_sample _ _
  | reqFileTransferChunk =>
      exact answersFailure_sys rfl (fun _ failed => by cases failed) fun _ =>
        answersFailure_sample _ _
  | reqFileTransferEnd =>
      exact answersFailure_sys rfl (fun _ failed => by cases failed) fun _ =>
        answersFailure_sample _ _
  | reqGetSettings =>
      unfold reqGetSettings
      split
      · exact answersFailure_sample _ _
      · exact answersFailure_respond _ _ _
  | reqSetSetting =>
      unfold reqSetSetting
      split
      · exact answersFailure_sample _ _
      · exact answersFailure_sample _ _
  | reqFileList =>
      exact answersFailure_quiet (proceeds_createFileListPacket _ _)
        (telling_createFileListPacket _ _) fun _ => answersFailure_respond _ _ _
  | reqLogin => exact absurd rfl hlogin
  | reqCompress => exact answersFailure_reqCompress cb s
  | reqClean => exact answersFailure_reqClean s

end Answers

/-! ### Requests -/

/-- An error response. -/
def IsError (frame : List UInt8) : Prop :=
  frame[1]? = some PacketType.respIoError.toByte ∨
    frame[1]? = some PacketType.respNotLoggedIn.toByte

/-- The request is served to its end, it does not ask for the settings, `lseek` finds
the chunk it asks for, and what its handler does not look at (that no file is open, or
an unreported failure) does not go wrong unless something fails that it looks at. -/
structure AnswersOnce (session : Session) (cb : ConnectionBuffer) (events : List ServerEvent)
    (ty : PacketType) : Prop where
  returns : Returns cb session events ty
  settings : ¬ AsksForSettings ty session
  seeks : ¬ ∃ e ∈ events, seekFailed e = true
  opened : session.id ≠ [] → NoFileOpen session ty → ∃ e ∈ events, failureReported e = true
  reported : (∃ e ∈ events, failureUnreported e = true) → ∃ e ∈ events, failureReported e = true

section Requests

variable {users : DatabaseHandler} {fuel : Nat} {receiveBuffer : Buffer} {cb : ConnectionBuffer}
  {ty : PacketType} {s : HandlerState} {events : List ServerEvent}
  {out : Except Fault HandlerState}

/-- A request on a file is refused without a login. -/
theorem NoFileOpen.needsLogin {session : Session} (h : NoFileOpen session ty) :
    ty.needsNoLogin = false := by
  cases ty <;> first | rfl | cases h

/-- A failure that the condition admits is a reported one. -/
theorem AnswersOnce.failed (ok : AnswersOnce s.session cb events ty)
    (hopen : ¬ (ty.needsNoLogin = false ∧ s.session.id = []))
    (failed : OperationFailed s.session events ty) :
    ty ≠ .reqLogin ∧ ∃ e ∈ events, failureReported e = true := by
  rcases failed with noFile | ⟨hlogin, e, hmem, he⟩
  · have hid : s.session.id ≠ [] := fun hid => hopen ⟨noFile.needsLogin, hid⟩
    refine ⟨?_, ok.opened hid noFile⟩
    rintro rfl
    exact noFile
  refine ⟨hlogin, ?_⟩
  simp only [callFailed, Bool.or_eq_true] at he
  rcases he with ((threw | seek) | reported) | unreported
  · rcases ok.returns with refused | ⟨-, -, none⟩
    · exact absurd refused hopen
    · rw [none e hmem] at threw
      cases threw
  · exact absurd ⟨e, hmem, seek⟩ ok.seeks
  · exact ⟨e, hmem, reported⟩
  · exact ok.reported ⟨e, hmem, unreported⟩

/-- A request that meets the condition is answered once, and with an error if its
operation failed. -/
theorem dispatch_answersOnce (hanswered : ty.isAnswered = true)
    (bounded : ∀ e ∈ events, ReadBounded e)
    (run : Exec (dispatch users fuel ty receiveBuffer cb s) events out)
    (hfuel : out ≠ .error .outOfFuel) (ok : AnswersOnce s.session cb events ty) :
    ∃ frame, sends events = [frame] ∧ declaredSize frame = frame.length ∧
      (OperationFailed s.session events ty → IsError frame) := by
  obtain ⟨t, rfl⟩ := (dispatch_returns_iff run hfuel).mpr ok.returns
  have one : OneFrame (sends events) := by
    cases dispatch_sends bounded run with
    | settings frame asks _ _ _ => exact absurd asks ok.settings
    | twice frame _ failed _ _ _ => exact absurd failed ok.seeks
    | nothing _ _ _ hout => exact absurd rfl (hout hanswered t)
    | once t' _ _ _ one => exact one
  obtain ⟨frame, hsends, hsize⟩ := one
  refine ⟨frame, hsends, hsize, fun failed => ?_⟩
  rcases dispatch_cases run with ⟨-, -, refused⟩ | ⟨-, -, -, hend⟩ | ⟨handler, hopen, hhandler, run⟩
  · obtain ⟨rfl, -⟩ := exec_sendSampleResp_iff.mp refused
    obtain rfl : sampleFrame s.tls .respNotLoggedIn = frame := List.singleton_inj.mp hsends
    exact .inr (sampleFrame_command ..)
  · cases hend
  obtain ⟨hlogin, reported⟩ := ok.failed hopen failed
  by_cases hchunk : ty = .reqFileDownloadChunk
  · subst hchunk
    cases hhandler
    obtain ⟨u, -, calls⟩ := exec_reqFileDownloadChunk_iff.mp run
    cases calls with
    | notThere position closed hposition =>
        refine absurd ⟨_, List.mem_cons_self, ?_⟩ ok.seeks
        simpa [seekFailed] using hposition
    | answered data => simp [failureReported] at reported
  · obtain ⟨tls, herror⟩ :=
      handlers_answerFailure hhandler hlogin hchunk s events _ run t rfl reported
    obtain rfl : sampleFrame tls .respIoError = frame := List.singleton_inj.mp (herror ▸ hsends)
    exact .inl (sampleFrame_command ..)

end Requests

/-! ### Runs -/

/-- The request of the client is answered in one frame, which is the one it reads and
which is an error if the operation failed. -/
def OneResponse (m : Move LockstepState LockstepLabel) : Prop :=
  match m.label with
  | .exchange (.packet d ty _ _ _ events _) received =>
      ∃ session frame, m.pre.live d = some session ∧ sends events = [frame] ∧
        declaredSize frame = frame.length ∧ received = frame ∧
        (OperationFailed session events ty → IsError frame)
  | _ => True

/-- The requests of the client meet the condition. -/
def RequestsAnswered (m : Move LockstepState LockstepLabel) : Prop :=
  match m.label with
  | .exchange (.packet d ty _ cb _ events _) _ =>
      ∀ session, m.pre.live d = some session → AnswersOnce session cb events ty
  | _ => True

/-- With nothing unread before, a request that meets the condition has one response. -/
theorem LockstepStep.oneResponse {users : DatabaseHandler} {c : ConnId} {w v : LockstepState}
    {l : LockstepLabel} (now : w.unread = []) (step : LockstepStep users c w l v)
    (ok : RequestsAnswered ⟨w, l, v⟩) : OneResponse ⟨w, l, v⟩ ∧ v.unread = [] := by
  cases step with
  | accept accepted =>
      refine ⟨trivial, ?_⟩
      simp [now]
  | disconnect disconnected => exact ⟨trivial, now⟩
  | packet _ bounded served => exact ⟨trivial, now⟩
  | exchange hanswered bounded served hrecv =>
      obtain ⟨fuel, session, hlive, run, hfuel, -⟩ := served.packet_inv
      obtain ⟨frame, hsends, hsize, herror⟩ :=
        dispatch_answersOnce hanswered bounded run hfuel (ok session hlive)
      rw [now, List.nil_append, hsends] at hrecv
      simp only [List.flatten_cons, List.flatten_nil, List.append_nil,
        recvFromServer_frame hsize, Prod.mk.injEq] at hrecv
      obtain ⟨rfl, rfl⟩ := hrecv
      exact ⟨⟨session, frame, hlive, hsends, hsize, rfl, herror⟩, rfl⟩

/-- In a lockstep run whose requests meet the condition, each is answered in exactly
one frame, which the client reads as its answer. -/
theorem one_response {users : DatabaseHandler} {c : ConnId} {w : LockstepState}
    {moves : List (Move LockstepState LockstepLabel)}
    (run : Run (lockstepSystem users c) .initial moves w)
    (ok : ∀ m ∈ moves, RequestsAnswered m) : ∀ m ∈ moves, OneResponse m := by
  have sound : ∀ m : Move LockstepState LockstepLabel, m.pre.unread = [] →
      (lockstepSystem users c).step m.pre m.label m.post → RequestsAnswered m →
      OneResponse m ∧ m.post.unread = [] :=
    fun m now step meets => step.2.oneResponse now meets
  exact run.moves_of_meets (I := fun w => w.unread = []) sound rfl ok

/-- A request for the first chunk. -/
def firstChunkPacket (c : ConnId) : ConnectionBuffer :=
  ⟨c, [0, 17, 16, 0, 0, 0, 0, 0, 0, 0, 0, 0, 0, 0, 0, 0]⟩

/-- The root of the example users asks for a chunk with no file open: `lseek` fails, and
the error is sent twice. -/
theorem chunk_error_sent_twice :
    ∃ moves w, Run (lockstepSystem exampleUsers 0) .initial moves w ∧
      ∃ m ∈ moves, ¬ OneResponse m := by
  obtain ⟨moves, w, login, running, hlive, hunread, -, -⟩ := exists_rootLogin_lockstep
  have calls : Exec (reqFileDownloadChunk (firstChunkPacket 0) ⟨rootSession, w.g, Buffer.zero⟩)
      _ _ :=
    exec_reqFileDownloadChunk_iff.mpr ⟨_, rfl, .notThere (-1) (-1) (by decide)⟩
  have asked : RequestStep exampleUsers w.toRequestState
      (.packet 0 .reqFileDownloadChunk (firstChunkPacket 0).buffer (firstChunkPacket 0) Buffer.zero
        _ _) _ :=
    .packet 0 hlive calls (by simp)
  have answered : LockstepStep exampleUsers 0 w _ _ :=
    .exchange rfl (by simp [ReadBounded]) asked rfl
  refine ⟨_, _, login.append (.one ⟨running, answered⟩), _,
    List.mem_append_right _ List.mem_cons_self, ?_⟩
  rintro ⟨session, frame, -, hsends, -⟩
  cases hsends

/-- A ping is answered once. -/
theorem one_response_ping :
    ∃ moves w, Run (lockstepSystem exampleUsers 0) .initial moves w ∧ moves.length = 2 ∧
      ∀ m ∈ moves, OneResponse m := by
  have accepted : LockstepStep exampleUsers 0 .initial (.other (.accept 0 5)) .connected :=
    .accept (.accept rfl)
  have ping : Exec (dispatch exampleUsers 0 .reqPing pingTask.packet.buffer pingTask.packet
      ⟨.accepted 5, .initial, Buffer.zero⟩) _ (.ok _) :=
    exec_respond ⟨.accepted 5, .initial, Buffer.zero⟩ _ _
  have served : RequestStep exampleUsers LockstepState.connected.toRequestState
      (.packet 0 .reqPing pingTask.packet.buffer pingTask.packet Buffer.zero _ _) _ :=
    .packet 0 (RequestState.live_next_self ..) ping (by simp)
  have answered : LockstepStep exampleUsers 0 .connected _ _ :=
    .exchange rfl (by simp [ReadBounded]) served rfl
  have run : Run (lockstepSystem exampleUsers 0) .initial _ _ :=
    .cons ⟨rfl, accepted⟩ (.cons ⟨rfl, answered⟩ (.nil _))
  refine ⟨_, _, run, rfl, one_response run ?_⟩
  have returns := (dispatch_returns_iff ping (by simp)).mp ⟨_, rfl⟩
  have ok : AnswersOnce (.accepted 5) pingTask.packet _ .reqPing :=
    ⟨returns, by simp [AsksForSettings], by simp [seekFailed], fun _ noFile => noFile.elim,
      by simp [failureUnreported]⟩
  rintro m (_ | ⟨_, _ | ⟨_, ⟨⟩⟩⟩)
  · trivial
  · intro session hlive
    have hsession : Session.accepted 5 = session :=
      Option.some.inj ((RequestState.live_next_self ..).symm.trans hlive)
    exact hsession ▸ ok

end ConcurrentTcp
