import ConcurrentTcp.Server.ArchiveEffects
import ConcurrentTcp.Server.Returns

/-!
Whether a reported archive is complete.

A back end answers whether it has come to its end, and the handler sends that on. Some
failures make it give up, others it does not look at: `compress_honest_iff` says for which
outcomes of the calls a response is true.
-/

namespace ConcurrentTcp

open Interaction

/-- The end of the compress handler, for the files that it found. -/
def answerCompress (fuel : Nat) (format : Option Format) (files : List Str) (archivePath : Str)
    (compressionLevel : Int) (s : HandlerState) : ServerProg HandlerState := do
  let success ← compressWith fuel format files archivePath compressionLevel
  sendSampleResp s (if success then .respCompress else .respIoError)

/-- The handler ends so for every list of files. -/
theorem reqCompress_eq {cb : ConnectionBuffer} {archiveName : Str}
    (harchive : PacketCompress.archiveName cb.buffer = some archiveName) (fuel : Nat)
    (s : HandlerState) :
    reqCompress fuel cb s = filesToCompress s.session cb.buffer >>= fun listed =>
      listed.elim (sendSampleResp s .respIoError) fun files =>
        answerCompress fuel (PacketCompress.format cb.buffer) files (s.session.path archiveName)
          (getCompressionLevel (PacketCompress.compressionLevel cb.buffer)
            (PacketCompress.format cb.buffer)) s := by
  rw [reqCompress, harchive]
  refine congrArg (filesToCompress s.session cb.buffer >>= ·) ?_
  funext listed
  cases listed <;> rfl

/-- A format that is none is an error. -/
theorem answerCompress_none (fuel : Nat) (files : List Str) (archivePath : Str)
    (compressionLevel : Int) (s : HandlerState) :
    answerCompress fuel none files archivePath compressionLevel s =
      sendSampleResp s .respIoError := rfl

/-! ### Complete archives -/

def archiveSuffix (format : Format) : Str := (tarSuffix format).getD (ascii ".zip")

/-- A header, a data block or an output block that is not accepted. -/
def blockRefused : ServerEvent → Bool
  | ⟨.compression (.archiveWriteHeader _ _), (written : Bool)⟩ => !written
  | ⟨.compression (.archiveWriteData _), (written : Bool)⟩ => !written
  | ⟨.compression (.zstdCompressCCtx _ _), (out : Option (List UInt8))⟩ => out.isNone
  | ⟨.compression (.gzwrite _), (written : Bool)⟩ => !written
  | ⟨.compression (.lzmaCode .run _), (step : LzmaStep)⟩ => step.ret != .ok
  | ⟨.compression (.lz4CompressDefault _), (out : Option (List UInt8))⟩ => out.isNone
  | ⟨.compression (.fwrite _ _), (written : Bool)⟩ => !written
  | ⟨.compression (.zipSourceFile _), (made : Bool)⟩ => !made
  | ⟨.compression (.zipFileAdd _), (added : Bool)⟩ => !added
  | _ => false

/-- A final write or close that reports failure. -/
def finishFailed (archivePath : Str) : ServerEvent → Bool
  | ⟨.compression .archiveWriteClose, (closed : Bool)⟩ => !closed
  | ⟨.compression (.lzmaCode .finish _), (step : LzmaStep)⟩ => step.ret == .error
  | ⟨.compression (.fclose path), (closed : Bool)⟩ => path = archivePath && !closed
  | ⟨.compression .gzclose, (closed : Bool)⟩ => !closed
  | ⟨.compression .zipClose, (closed : Bool)⟩ => !closed
  | _ => false

/-- The call that closes the archive. -/
def finalClose (archiveBasePath : Str) : Format → CompressionCall
  | .gzip => .gzclose
  | .zip => .zipClose
  | format => .fclose (archiveBasePath ++ archiveSuffix format)

/-- An `fread` that is not followed by another. -/
def FreadResult.last : FreadResult → Bool
  | .block (_ :: _) => false
  | _ => true

/-- A file came to its end, or was handed to libzip, which reads it on closing. -/
def ReadToEnd (format : Format) (path : Str) (events : List ServerEvent) : Prop :=
  match format with
  | .zip => ∃ e ∈ events, e = ⟨.compression (.zipFileAdd path), true⟩
  | _ => ∃ e ∈ events, ∃ block : FreadResult, block.last = true ∧
      e = ⟨.compression (.fread path), block⟩

/-- Every file was read to its end, every block was accepted, and the archive was closed. -/
structure ArchiveComplete (format : Format) (files : List Str) (archiveBasePath : Str)
    (events : List ServerEvent) : Prop where
  read : ∀ path ∈ files, ReadToEnd format path events
  noReadError : ∀ path ∈ files,
    (⟨.compression (.fread path), FreadResult.error⟩ : ServerEvent) ∉ events
  accepted : ∀ e ∈ events, blockRefused e = false
  closed : ∃ e ∈ events, e.op = .compression (finalClose archiveBasePath format)
  finished : ∀ e ∈ events, finishFailed (archiveBasePath ++ archiveSuffix format) e = false

/-- Success is reported for complete archives only, and everything else as an error. -/
def HonestAnswer (format : Format) (files : List Str) (archiveBasePath : Str) (tls : Buffer)
    (events : List ServerEvent) : Prop :=
  sends events = [sampleFrame tls .respCompress] ∧
      ArchiveComplete format files archiveBasePath events ∨
    sends events = [sampleFrame tls .respIoError]

/-- A failure that spoils the archive, and that no back end looks at. -/
def Unnoticed (files : List Str) (archivePath : Str) : ServerEvent → Prop
  | ⟨.compression (.fread path), (block : FreadResult)⟩ => path ∈ files ∧ block = .error
  | ⟨.compression (.archiveWriteHeader _ _), (written : Bool)⟩ => written = false
  | ⟨.compression (.archiveWriteData _), (written : Bool)⟩ => written = false
  | ⟨.compression .archiveWriteClose, (closed : Bool)⟩ => closed = false
  | ⟨.compression (.fwrite _ _), (written : Bool)⟩ => written = false
  | ⟨.compression (.fclose path), (closed : Bool)⟩ => path = archivePath ∧ closed = false
  | ⟨.compression .gzclose, (closed : Bool)⟩ => closed = false
  | ⟨.compression .zipClose, (closed : Bool)⟩ => closed = false
  | _ => False

section Failures

variable {files : List Str} {archivePath : Str} {e : ServerEvent}

/-- A block that is not accepted is looked at, or is lost unnoticed. -/
theorem noticed_of_blockRefused (h : blockRefused e = true) :
    failureReported e = true ∨ Unnoticed files archivePath e := by
  unfold blockRefused at h
  split at h
  · exact .inr (by simpa [Unnoticed] using h)
  · exact .inr (by simpa [Unnoticed] using h)
  · exact .inl h
  · exact .inl h
  · exact .inl h
  · exact .inl h
  · exact .inr (by simpa [Unnoticed] using h)
  · exact .inl h
  · exact .inl h
  · cases h

theorem noticed_of_finishFailed (h : finishFailed archivePath e = true) :
    failureReported e = true ∨ Unnoticed files archivePath e := by
  unfold finishFailed at h
  split at h
  · exact .inr (by simpa [Unnoticed] using h)
  · exact .inl h
  · exact .inr (by simpa [Unnoticed] using h)
  · exact .inr (by simpa [Unnoticed] using h)
  · exact .inr (by simpa [Unnoticed] using h)
  · cases h

theorem Unnoticed.spoils (h : Unnoticed files archivePath e) :
    blockRefused e = true ∨ finishFailed archivePath e = true ∨
      ∃ path ∈ files, e = ⟨.compression (.fread path), FreadResult.error⟩ := by
  unfold Unnoticed at h
  split at h
  · obtain ⟨hpath, rfl⟩ := h
    exact .inr (.inr ⟨_, hpath, rfl⟩)
  · exact .inl (by simpa [blockRefused] using h)
  · exact .inl (by simpa [blockRefused] using h)
  · exact .inr (.inl (by simpa [finishFailed] using h))
  · exact .inl (by simpa [blockRefused] using h)
  · exact .inr (.inl (by simpa [finishFailed] using h))
  · exact .inr (.inl (by simpa [finishFailed] using h))
  · exact .inr (.inl (by simpa [finishFailed] using h))
  · exact h.elim

end Failures

/-! ### What a back end has done -/

section BackEnds

variable {mark : ServerEvent → Prop} {R : Bool → Prop} {α β : Type} {fuel : Nat}

/-- A call before what shows the mark. -/
theorem shows_sys {op : SysCall} {Q : β → Prop} {f : op.Answer → ServerProg β}
    (later : ∀ ans, Shows mark Q (f ans)) : Shows mark Q (sys op >>= f) :=
  Shows.call fun ans => .inr (later ans)

theorem shows_guard {call : CompressionCall} {failed : call.Answer → Bool} {Q : β → Prop}
    {giveUp : ServerProg β} {rest : call.Answer → ServerProg β}
    (here : ∀ ans, failed ans = true → mark ⟨.compression call, ans⟩ ∨ Shows mark Q giveUp)
    (later : ∀ ans, Shows mark Q (rest ans)) :
    Shows mark Q (lib call >>= fun ans => if failed ans then giveUp else rest ans) := by
  apply Shows.call
  intro (ans : call.Answer)
  by_cases hfailed : failed ans = true
  · rcases here ans hfailed with hmark | hgive
    · exact .inl hmark
    · refine .inr ?_
      show Shows mark Q (if failed ans then giveUp else rest ans)
      rw [if_pos hfailed]
      exact hgive
  · refine .inr ?_
    show Shows mark Q (if failed ans then giveUp else rest ans)
    rw [if_neg hfailed]
    exact later ans

/-- A loop that is broken off by its body. -/
theorem shows_broken {path : Str} {body : List UInt8 → ServerProg Bool} {rounds : Nat}
    (hbody : ∀ bytes, Shows mark (· = false) (body bytes)) :
    Shows mark (· = false) (whileFread path body rounds) := by
  induction rounds with
  | zero => exact .fail _
  | succ rounds ih =>
      apply shows_sys
      intro block
      match block with
      | .block (b :: bs) =>
          refine .bind (hbody (b :: bs)) fun goOn hgoOn => ?_
          rw [if_pos (by simpa using hgoOn)]
          exact ih
      | .block [] => exact .ret (by simp)
      | .eof => exact .ret (by simp)
      | .error => exact .ret (by simp)

/-- A loop whose body never breaks it off comes to the last block. -/
theorem shows_last {path : Str} {body : List UInt8 → ServerProg Bool} {rounds : Nat}
    (hbody : ∀ bytes, Rejects (· = false) (body bytes)) {Q : Bool → Prop} :
    Shows (fun e => ∃ block : FreadResult, block.last = true ∧
      e = ⟨.compression (.fread path), block⟩) Q (whileFread path body rounds) := by
  induction rounds with
  | zero => exact .fail _
  | succ rounds ih =>
      apply Shows.call
      intro block
      match block with
      | .block (b :: bs) =>
          refine .inr (.bind (P := (· = false)) ?_ fun goOn hgoOn => ?_)
          · intro events out run goOn hout hfalse
            exact absurd hfalse (hbody (b :: bs) events out run goOn hout)
          · rw [if_pos (by simpa using hgoOn)]
            exact ih
      | .block [] => exact .inl ⟨_, rfl, rfl⟩
      | .eof => exact .inl ⟨_, rfl, rfl⟩
      | .error => exact .inl ⟨_, rfl, rfl⟩

theorem shows_addTarEntry (path : Str) :
    Shows (fun e => ∃ block : FreadResult, block.last = true ∧
      e = ⟨.compression (.fread path), block⟩) (fun _ => True) (addTarEntry fuel path) := by
  apply shows_sys
  rintro (⟨⟩ | size)
  · exact .fail _
  apply shows_sys
  intro _
  apply shows_sys
  rintro (_ | _)
  · exact .fail _
  · apply Shows.before
    apply shows_last
    exact fun bytes => .bind fun _ => .ret (by simp)

/-- Every listed file is read to its end, or to an error. -/
theorem shows_createTarArchive {files : List Str} {path : Str} (hpath : path ∈ files)
    (tarPath : Str) :
    Shows (fun e => ∃ block : FreadResult, block.last = true ∧
      e = ⟨.compression (.fread path), block⟩) (fun _ => True)
      (createTarArchive fuel files tarPath) := by
  apply shows_sys
  intro _
  apply Shows.before
  exact Shows.foldlM hpath (fun _ => shows_addTarEntry path) ()

theorem createTarArchive_made (files : List Str) (tarPath : Str) :
    Rejects (· = false) (createTarArchive fuel files tarPath) :=
  .bind fun _ => .bind fun _ => .bind fun _ => .ret (by simp)

/-- The tar file never stops a back end. -/
theorem shows_tarBackEnd {files : List Str} {tarPath : Str} {rest : ServerProg Bool}
    (later : Shows mark R rest) :
    Shows mark R (createTarArchive fuel files tarPath >>=
      fun made => if !made then .ret false else rest) := by
  apply Shows.bind (P := (· = false))
  · intro events out run made hout hfalse
    exact absurd hfalse (createTarArchive_made files tarPath events out run made hout)
  · intro made hmade
    rw [if_neg (by simpa using hmade)]
    exact later

theorem shows_closeAll {paths : List Str} {path : Str} (hpath : path ∈ paths) :
    Shows (·.op = .compression (.fclose path)) (fun _ => True) (closeAll paths) :=
  Shows.foldlM hpath (fun _ => Shows.call fun _ => .inl rfl) ()

/-- A back end that is to close its archive gives up. -/
theorem shows_giveUp {call : CompressionCall} {failed : call.Answer → Bool} {paths : List Str}
    {rest : call.Answer → ServerProg Bool} (later : ∀ ans, Shows mark (· = true) (rest ans)) :
    Shows mark (· = true) (lib call >>= fun ans =>
      if failed ans then (closeAll paths >>= fun _ => .ret false) else rest ans) :=
  shows_guard (fun _ _ => .inr (.after fun _ => .ret (by simp))) later

/-- A call whose failure is looked at. -/
theorem shows_reported {call : CompressionCall} {failed : call.Answer → Bool}
    {giveUp : ServerProg Bool} {rest : call.Answer → ServerProg Bool}
    (here : ∀ ans, failed ans = libraryFailureReported call ans)
    (later : ∀ ans, Shows (failureReported · = true) R (rest ans)) :
    Shows (failureReported · = true) R
      (lib call >>= fun ans => if failed ans then giveUp else rest ans) :=
  shows_guard (fun ans hfailed => .inl ((here ans).symm.trans hfailed)) later

/-- The loop over the tar file, and what follows it. -/
theorem blames_blocks {body : List UInt8 → ServerProg Bool} {rounds : Nat} {tarPath : Str}
    {paths : List Str}
    (hbody : ∀ bytes, Shows (failureReported · = true) (· = false) (body bytes)) :
    Shows (failureReported · = true) (· = false) (do
      let finished ← whileFread tarPath body rounds
      closeAll paths
      if !finished then .ret false
      else
        let _ ← sys (.remove tarPath)
        .ret true) := by
  refine Shows.bind (shows_broken hbody) fun finished hfinished => ?_
  refine Shows.after fun _ => ?_
  rw [if_neg (by simpa using hfinished)]
  exact .after fun _ => .ret (by simp)

section Formats

variable (files : List Str) (archiveBasePath : Str) (level : Int)

theorem closes_compressWithZstd :
    Shows (·.op = .compression (finalClose archiveBasePath .zstd)) (· = true)
      (compressWithZstd fuel files archiveBasePath level) := by
  apply shows_tarBackEnd
  apply shows_guard (fun _ _ => .inr (.ret (by simp)))
  intro _
  apply shows_giveUp
  intro _
  apply shows_giveUp
  intro _
  apply Shows.after
  intro finished
  exact Shows.before (shows_closeAll (by simp [archiveSuffix, tarSuffix]))

theorem blames_compressWithZstd :
    Shows (failureReported · = true) (· = false)
      (compressWithZstd fuel files archiveBasePath level) := by
  apply shows_tarBackEnd
  apply shows_reported (fun _ => rfl)
  intro _
  apply shows_reported (fun _ => rfl)
  intro _
  apply shows_reported (fun _ => rfl)
  intro _
  refine blames_blocks fun bytes => ?_
  apply Shows.call
  rintro (_ | out)
  · exact .inl rfl
  · exact .inr (shows_sys fun _ => .ret (by simp))

theorem closes_compressWithGzip :
    Shows (·.op = .compression (finalClose archiveBasePath .gzip)) (· = true)
      (compressWithGzip fuel files archiveBasePath level) := by
  have closed {f : Bool → ServerProg Bool} :
      Shows (·.op = .compression .gzclose) (· = true) (lib .gzclose >>= f) :=
    Shows.call fun _ => .inl rfl
  apply shows_tarBackEnd
  apply shows_guard (fun _ _ => .inr (.ret (by simp)))
  intro _
  apply shows_giveUp
  intro _
  apply shows_sys
  intro _
  apply shows_guard (fun _ _ => .inr closed)
  intro _
  apply Shows.after
  intro finished
  exact .after fun _ => closed

theorem blames_compressWithGzip :
    Shows (failureReported · = true) (· = false)
      (compressWithGzip fuel files archiveBasePath level) := by
  apply shows_tarBackEnd
  apply shows_reported (fun _ => rfl)
  intro _
  apply shows_reported (fun _ => rfl)
  intro _
  apply shows_sys
  intro _
  apply shows_reported (fun _ => rfl)
  intro _
  apply Shows.bind (P := (· = false))
  · apply shows_broken
    intro bytes
    apply Shows.call
    rintro (_ | _)
    · exact .inl rfl
    · exact .inr (.ret (by simp))
  · intro finished hfinished
    apply Shows.after
    intro _
    apply shows_sys
    intro _
    rw [if_neg (by simpa using hfinished)]
    exact .after fun _ => .ret (by simp)

theorem closes_compressWithXz :
    Shows (·.op = .compression (finalClose archiveBasePath .xz)) (· = true)
      (compressWithXz fuel files archiveBasePath level) := by
  apply shows_tarBackEnd
  apply shows_guard (fun _ _ => .inr (.ret (by simp)))
  intro _
  apply shows_giveUp
  intro _
  apply shows_giveUp
  intro _
  apply Shows.after
  intro finished
  split
  · exact .after fun _ => .ret (by simp)
  · apply Shows.after
    intro _
    apply Shows.after
    intro ret
    exact Shows.before (shows_closeAll (by simp [archiveSuffix, tarSuffix]))

theorem blames_lzmaRun {archivePath : Str} {rounds : Nat} (input : List UInt8) :
    Shows (failureReported · = true) (· = false) (lzmaRun archivePath input rounds) := by
  induction rounds generalizing input with
  | zero => exact .fail _
  | succ rounds ih =>
      apply Shows.call
      intro (step : LzmaStep)
      by_cases hret : step.ret = .ok
      · refine .inr ?_
        show Shows _ _ (if step.ret ≠ .ok then _ else _)
        rw [if_neg (not_not.mpr hret)]
        apply shows_sys
        intro _
        split
        · exact .ret (by simp)
        · exact ih _
      · exact .inl (by simpa [failureReported, libraryFailureReported] using hret)

theorem blames_lzmaFinish {archivePath : Str} {rounds : Nat} :
    Shows (failureReported · = true) (· ≠ .streamEnd) (lzmaFinish archivePath rounds) := by
  induction rounds with
  | zero => exact .fail _
  | succ rounds ih =>
      apply Shows.call
      intro (step : LzmaStep)
      have later (h : step.ret ≠ .error) :
          Shows (failureReported · = true) (· ≠ .streamEnd)
            (lib (.fwrite archivePath step.output) >>= fun _ =>
              if step.ret = .ok then lzmaFinish archivePath rounds else .ret step.ret) := by
        apply shows_sys
        intro _
        cases hret : step.ret with
        | error => exact absurd hret h
        | ok =>
            rw [if_pos rfl]
            exact ih
        | streamEnd =>
            rw [if_neg nofun]
            exact .ret (by simp)
      by_cases hret : step.ret = .error
      · exact .inl (by simpa [failureReported, libraryFailureReported] using hret)
      · exact .inr (later hret)

theorem blames_compressWithXz :
    Shows (failureReported · = true) (· = false)
      (compressWithXz fuel files archiveBasePath level) := by
  apply shows_tarBackEnd
  apply shows_reported (fun _ => rfl)
  intro _
  apply shows_reported (fun _ => rfl)
  intro _
  apply shows_reported (fun _ => rfl)
  intro _
  apply Shows.bind (shows_broken fun _ => blames_lzmaRun _)
  intro finished hfinished
  rw [if_neg (by simpa using hfinished)]
  apply Shows.after
  intro _
  apply Shows.bind blames_lzmaFinish
  intro ret hret
  apply Shows.after
  intro _
  exact .after fun _ => .ret (by simpa using hret)

theorem closes_compressWithLz4 :
    Shows (·.op = .compression (finalClose archiveBasePath .lz4)) (· = true)
      (compressWithLz4 fuel files archiveBasePath level) := by
  apply shows_tarBackEnd
  apply shows_guard (fun _ _ => .inr (.ret (by simp)))
  intro _
  apply shows_giveUp
  intro _
  apply Shows.after
  intro finished
  exact Shows.before (shows_closeAll (by simp [archiveSuffix, tarSuffix]))

theorem blames_compressWithLz4 :
    Shows (failureReported · = true) (· = false)
      (compressWithLz4 fuel files archiveBasePath level) := by
  apply shows_tarBackEnd
  apply shows_reported (fun _ => rfl)
  intro _
  apply shows_reported (fun _ => rfl)
  intro _
  refine blames_blocks fun bytes => ?_
  apply Shows.call
  rintro (_ | out)
  · exact .inl rfl
  · exact .inr (shows_sys fun _ => .ret (by simp))

variable {files} in
/-- A zip archive that is made has every file. -/
theorem shows_addZipEntries {path : Str} (hpath : path ∈ files) :
    Shows (· = ⟨.compression (.zipFileAdd path), true⟩) (· = true)
      (addZipEntries level files) := by
  induction files with
  | nil => cases hpath
  | cons other rest ih =>
      apply shows_guard (fun _ _ => .inr (.ret (by simp)))
      intro _
      rcases List.mem_cons.mp hpath with rfl | later
      · apply Shows.call
        rintro (_ | _)
        · exact .inr (.ret (by simp))
        · exact .inl rfl
      · apply shows_guard (fun _ _ => .inr (.ret (by simp)))
        intro _
        exact shows_sys fun _ => ih later

theorem blames_addZipEntries :
    Shows (failureReported · = true) (· = false) (addZipEntries level files) := by
  induction files with
  | nil => exact .ret (by simp)
  | cons path rest ih =>
      apply shows_reported (fun _ => rfl)
      intro _
      apply shows_reported (fun _ => rfl)
      intro _
      exact shows_sys fun _ => ih

theorem closes_compressWithZip :
    Shows (·.op = .compression (finalClose archiveBasePath .zip)) (· = true)
      (compressWithZip files archiveBasePath level) := by
  apply shows_guard (fun _ _ => .inr (.ret (by simp)))
  intro _
  exact .after fun _ => Shows.call fun _ => .inl rfl

theorem blames_compressWithZip :
    Shows (failureReported · = true) (· = false)
      (compressWithZip files archiveBasePath level) := by
  apply shows_reported (fun _ => rfl)
  intro _
  apply Shows.bind (blames_addZipEntries files level)
  intro added hadded
  exact shows_sys fun _ => .ret hadded

variable {files} in
theorem adds_compressWithZip {path : Str} (hpath : path ∈ files) :
    Shows (· = ⟨.compression (.zipFileAdd path), true⟩) (· = true)
      (compressWithZip files archiveBasePath level) := by
  apply shows_guard (fun _ _ => .inr (.ret (by simp)))
  intro _
  apply Shows.bind (shows_addZipEntries level hpath)
  intro added hadded
  exact shows_sys fun _ => .ret hadded

/-- A back end that answers success has closed its archive. -/
theorem closes_compressWith (format : Format) :
    Shows (·.op = .compression (finalClose archiveBasePath format)) (· = true)
      (compressWith fuel (some format) files archiveBasePath level) := by
  cases format with
  | zstd => exact closes_compressWithZstd files archiveBasePath level
  | gzip => exact closes_compressWithGzip files archiveBasePath level
  | xz => exact closes_compressWithXz files archiveBasePath level
  | lzma => exact closes_compressWithXz files archiveBasePath level
  | lz4 => exact closes_compressWithLz4 files archiveBasePath level
  | zip => exact closes_compressWithZip files archiveBasePath level

/-- One that does not has seen a failure. -/
theorem blames_compressWith (format : Format) :
    Shows (failureReported · = true) (· = false)
      (compressWith fuel (some format) files archiveBasePath level) := by
  cases format with
  | zstd => exact blames_compressWithZstd files archiveBasePath level
  | gzip => exact blames_compressWithGzip files archiveBasePath level
  | xz => exact blames_compressWithXz files archiveBasePath level
  | lzma => exact blames_compressWithXz files archiveBasePath level
  | lz4 => exact blames_compressWithLz4 files archiveBasePath level
  | zip => exact blames_compressWithZip files archiveBasePath level

variable {files} in
/-- Every listed file came to its end, or to an error. -/
theorem reads_compressWith {format : Format} {path : Str} (hpath : path ∈ files)
    {events : List ServerEvent}
    (run : Exec (compressWith fuel (some format) files archiveBasePath level) events (.ok true)) :
    ReadToEnd format path events := by
  have tar {rest : Bool → ServerProg Bool}
      (run : Exec (createTarArchive fuel files (archiveBasePath ++ ascii ".tar") >>= rest)
        events (.ok true)) :
      ∃ e ∈ events, ∃ block : FreadResult, block.last = true ∧
        e = ⟨.compression (.fread path), block⟩ :=
    Shows.before (R := fun _ => True) (shows_createTarArchive hpath _) events _ run true rfl trivial
  cases format with
  | zip => exact adds_compressWithZip archiveBasePath level hpath events _ run true rfl rfl
  | _ => exact tar run

end Formats

end BackEnds

/-! ### The response -/

section Answer

variable {fuel : Nat} {format : Format} {files : List Str} {archiveBasePath : Str} {level : Int}
  {s : HandlerState} {events : List ServerEvent} {out : Except Fault HandlerState}

/-- The two responses are told apart. -/
theorem success_ne_error (tls : Buffer) :
    [sampleFrame tls .respCompress] ≠ [sampleFrame tls .respIoError] := by
  intro heq
  have hcommand := sampleFrame_command tls .respCompress
  rw [List.singleton_inj.mp heq, sampleFrame_command] at hcommand
  cases hcommand

theorem ReadToEnd.append {path : Str} {first : List ServerEvent}
    (h : ReadToEnd format path first) (second : List ServerEvent) :
    ReadToEnd format path (first ++ second) := by
  cases format with
  | zip =>
      obtain ⟨e, he, hadded⟩ := h
      exact ⟨e, List.mem_append_left _ he, hadded⟩
  | _ =>
      obtain ⟨e, he, hread⟩ := h
      exact ⟨e, List.mem_append_left _ he, hread⟩

/-- Success is reported when no call that is looked at has failed. -/
theorem noFailureReported (frame : List UInt8)
    (run : Exec (compressWith fuel (some format) files archiveBasePath level) events (.ok true)) :
    ∀ e ∈ events ++ [⟨.send frame, ()⟩], failureReported e = false := by
  refine List.forall_mem_append.mpr ⟨?_, by simp [failureReported]⟩
  exact telling_compressWith (some format) files archiveBasePath level events _ run true rfl rfl

/-- An archive of which success is reported is complete exactly when none of its failures
went unnoticed. -/
theorem archiveComplete_iff (frame : List UInt8)
    (run : Exec (compressWith fuel (some format) files archiveBasePath level) events (.ok true)) :
    ArchiveComplete format files archiveBasePath (events ++ [⟨.send frame, ()⟩]) ↔
      ∀ e ∈ events ++ [⟨.send frame, ()⟩],
        ¬ Unnoticed files (archiveBasePath ++ archiveSuffix format) e := by
  have noticed := noFailureReported frame run
  constructor
  · intro complete e he hlost
    rcases hlost.spoils with hrefused | hfailed | ⟨path, hpath, rfl⟩
    · rw [complete.accepted e he] at hrefused
      cases hrefused
    · rw [complete.finished e he] at hfailed
      cases hfailed
    · exact complete.noReadError path hpath he
  · intro kept
    have unspoiled (e : ServerEvent) (he : e ∈ events ++ [⟨.send frame, ()⟩]) :
        ¬ (failureReported e = true ∨
          Unnoticed files (archiveBasePath ++ archiveSuffix format) e) := by
      rintro (hreported | hlost)
      · rw [noticed e he] at hreported
        cases hreported
      · exact kept e he hlost
    refine ⟨fun path hpath => ?_, fun path hpath he => ?_, fun e he => ?_, ?_, fun e he => ?_⟩
    · exact (reads_compressWith archiveBasePath level hpath run).append _
    · exact kept _ he ⟨hpath, rfl⟩
    · exact Bool.eq_false_iff.mpr fun h => unspoiled e he (noticed_of_blockRefused h)
    · obtain ⟨e, he, hclose⟩ :=
        closes_compressWith files archiveBasePath level format events _ run true rfl rfl
      exact ⟨e, List.mem_append_left _ he, hclose⟩
    · exact Bool.eq_false_iff.mpr fun h => unspoiled e he (noticed_of_finishFailed h)

/-- A back end that returns has met nothing that ends it, nor has what follows. -/
theorem undisturbed_compressWith {success : Bool} (frame : List UInt8)
    (run : Exec (compressWith fuel (some format) files archiveBasePath level) events
      (.ok success)) :
    (∀ e ∈ events ++ [⟨.send frame, ()⟩], threw e = false) ∧
      entryNotOpened (events ++ [⟨.send frame, ()⟩]) = false := by
  have proceeds : Judged (Proceeds fuel True)
      (compressWith fuel (some format) files archiveBasePath level) :=
    proceeds_compressWith trivial _ _ _ _
  obtain ⟨-, hthrew⟩ := proceeds events _ run
  have hopened : entryNotOpened events = false := tarDefined_compressWith _ _ _ _ events _ run
  refine ⟨List.forall_mem_append.mpr ⟨hthrew, by simp [threw]⟩, ?_⟩
  simp [entryNotOpened_append, hopened, entryNotOpened, isTarClose, notOpened]

/-- One that does not return was ended by an exception or by a file that does not open. -/
theorem disturbed_compressWith {fault : Fault} (hfuel : fault ≠ .outOfFuel)
    (run : Exec (compressWith fuel (some format) files archiveBasePath level) events
      (.error fault)) :
    (∃ e ∈ events, threw e = true) ∨ entryNotOpened events = true := by
  have proceeds : Judged (Proceeds fuel True)
      (compressWith fuel (some format) files archiveBasePath level) :=
    proceeds_compressWith trivial _ _ _ _
  obtain ⟨-, hfault⟩ := proceeds events _ run
  cases fault with
  | filesystemError => exact .inl hfault
  | undefinedBehaviour => exact .inr (tarDefined_compressWith _ _ _ _ events _ run)
  | badFunctionCall => exact hfault.elim
  | outOfFuel => exact absurd rfl hfuel

/-- Nothing is sent before the response. -/
theorem sends_compressWith {end_ : Except Fault Bool}
    (run : Exec (compressWith fuel (some format) files archiveBasePath level) events end_) :
    sends events = [] := by
  have proceeds : Judged (Proceeds fuel True)
      (compressWith fuel (some format) files archiveBasePath level) :=
    proceeds_compressWith trivial _ _ _ _
  exact (proceeds events _ run).1

/-- The response of a back end that returns. -/
theorem honestAnswer_iff_of_returned (tls : Buffer) {success : Bool}
    (run : Exec (compressWith fuel (some format) files archiveBasePath level) events
      (.ok success)) :
    HonestAnswer format files archiveBasePath tls (events ++
        [⟨.send (sampleFrame tls (if success then .respCompress else .respIoError)), ()⟩]) ↔
      (∃ e ∈ events ++
          [⟨.send (sampleFrame tls (if success then .respCompress else .respIoError)), ()⟩],
          failureReported e = true) ∨
        ∀ e ∈ events ++
          [⟨.send (sampleFrame tls (if success then .respCompress else .respIoError)), ()⟩],
          ¬ Unnoticed files (archiveBasePath ++ archiveSuffix format) e := by
  have hsends (frame : List UInt8) : sends (events ++ [⟨.send frame, ()⟩]) = [frame] := by
    rw [sends_append, sends_compressWith run]
    rfl
  rw [HonestAnswer, hsends]
  cases success with
  | true =>
      have noticed : ¬ ∃ e ∈ events ++ [⟨.send (sampleFrame tls .respCompress), ()⟩],
          failureReported e = true := by
        rintro ⟨e, he, hreported⟩
        rw [noFailureReported _ run e he] at hreported
        cases hreported
      rw [if_pos rfl, and_iff_right rfl, or_iff_left (success_ne_error tls), or_iff_right noticed]
      exact archiveComplete_iff _ run
  | false =>
      obtain ⟨e, he, hreported⟩ :=
        blames_compressWith files archiveBasePath level format events _ run false rfl rfl
      exact iff_of_true (.inr rfl) (.inl ⟨e, List.mem_append_left _ he, hreported⟩)

/-- For every outcome of the calls the response is true exactly when nothing ends the handler,
and a failure that spoils the archive comes with one that is looked at. Runs whose loops are cut
for want of fuel are left out. -/
theorem compress_honest_iff
    (run : Exec (answerCompress fuel (some format) files archiveBasePath level s) events out)
    (hfuel : out ≠ .error .outOfFuel) :
    HonestAnswer format files archiveBasePath s.tls events ↔
      (∀ e ∈ events, threw e = false) ∧ entryNotOpened events = false ∧
        ((∃ e ∈ events, failureReported e = true) ∨
          ∀ e ∈ events, ¬ Unnoticed files (archiveBasePath ++ archiveSuffix format) e) := by
  rcases run.bind_cases with ⟨success, calls, last, made, answer, rfl⟩ | ⟨fault, failed, rfl⟩
  · obtain ⟨rfl, -⟩ := exec_sendSampleResp_iff.mp answer
    obtain ⟨hthrew, hopened⟩ := undisturbed_compressWith
      (sampleFrame s.tls (if success then .respCompress else .respIoError)) made
    rw [and_iff_right hthrew, and_iff_right hopened]
    exact honestAnswer_iff_of_returned s.tls made
  · have hsilent : sends events = [] := sends_compressWith failed
    refine iff_of_false ?_ ?_
    · rintro (⟨hsent, -⟩ | hsent)
      · rw [hsilent] at hsent
        cases hsent
      · rw [hsilent] at hsent
        cases hsent
    · rintro ⟨hthrew, hopened, -⟩
      have hfault : fault ≠ .outOfFuel := fun heq => hfuel (congrArg Except.error heq)
      rcases disturbed_compressWith hfault failed with ⟨e, he, hthrow⟩ | hnot
      · rw [hthrew e he] at hthrow
        cases hthrow
      · rw [hopened] at hnot
        cases hnot

end Answer

/-! ### A zip archive that is not written -/

/-- The calls for a zip archive of one file, and the response. -/
def zipEvents (closed : Bool) : List ServerEvent :=
  [⟨.compression (.zipOpen (ascii "a" ++ ascii ".zip")), true⟩,
    ⟨.compression (.zipSourceFile (ascii "x")), true⟩,
    ⟨.compression (.zipFileAdd (ascii "x")), true⟩,
    ⟨.compression (.zipSetFileCompression 6), true⟩,
    ⟨.compression .zipClose, closed⟩,
    ⟨.send (sampleFrame Buffer.zero .respCompress), ()⟩]

theorem exec_zipEvents (closed : Bool) (session : Session) (g : GlobalState) :
    Exec (answerCompress 1 (some .zip) [ascii "x"] (ascii "a") 6 ⟨session, g, Buffer.zero⟩)
      (zipEvents closed)
      (.ok ⟨session, g, Buffer.zero.setHeader .respCompress sizeofSamplePacket⟩) :=
  .call _ (.call _ (.call _ (.call _ (.call _ (exec_sendSampleResp_iff.mpr ⟨rfl, rfl⟩)))))

theorem compress_honest_example :
    HonestAnswer .zip [ascii "x"] (ascii "a") Buffer.zero (zipEvents true) := by
  refine (compress_honest_iff (exec_zipEvents true (Session.accepted 5) GlobalState.initial)
    nofun).mpr ⟨?_, rfl, .inr ?_⟩
  · simp [zipEvents, threw]
  · simp [zipEvents, Unnoticed]

/-- Closing the archive fails, and success is reported. -/
theorem not_compress_honest :
    Exec (answerCompress 1 (some .zip) [ascii "x"] (ascii "a") 6
        ⟨Session.accepted 5, GlobalState.initial, Buffer.zero⟩) (zipEvents false)
        (.ok ⟨Session.accepted 5, GlobalState.initial,
          Buffer.zero.setHeader .respCompress sizeofSamplePacket⟩) ∧
      ¬ HonestAnswer .zip [ascii "x"] (ascii "a") Buffer.zero (zipEvents false) := by
  refine ⟨exec_zipEvents false _ _, ?_⟩
  rintro (⟨-, complete⟩ | hsent)
  · have hclosed := complete.finished ⟨.compression .zipClose, false⟩ (by simp [zipEvents])
    cases hclosed
  · exact success_ne_error Buffer.zero hsent

end ConcurrentTcp
