import ConcurrentTcp.Base.Stateful
import ConcurrentTcp.Server.ArchiveOutcome

/-!
What an archive holds.

`ArchiveStep` says what the calls of a back end do when they succeed: to the files, to the
streams that are read, and to what the libraries have been given so far. The bytes that the
libraries make are arbitrary. `archive_holds_files` follows the contents through a back end. For
a tar format libarchive is given every listed file, whole and in order, the compressor is given
what libarchive made of them, and the archive is what the compressor made. libzip is given the
names, each of them once, and reads the files when it writes the archive.
-/

namespace ConcurrentTcp

open Interaction

/-! ### The calls -/

/-- A file in an archive. -/
structure ArchiveEntry where
  pathname : Str
  size : Nat
  data : List UInt8
deriving DecidableEq, Repr

/-- What a file holds. -/
def FileTree.content {Place : Type} (tree : FileTree Place) (place : Place) : List UInt8 :=
  match tree place with
  | some (.file content) => content
  | _ => []

/-- A file as it is put in. -/
def entryOf {Place : Type} (locate : Str → Place) (tree : FileTree Place) (path : Str) :
    ArchiveEntry :=
  ⟨path, (tree.content (locate path)).length, tree.content (locate path)⟩

/-- The files, what the streams have still to read, and what the libraries keep: the tar
archive with what was given to it and the bytes of its file, the input and output of the
compressor, and the files that libzip reads when it writes its archive. -/
structure ArchiveState (Place : Type) where
  files : FileTree Place
  unread : Str → List UInt8
  tarPath : Str
  entries : List ArchiveEntry
  tarBytes : List UInt8
  gzPath : Str
  consumed : List UInt8
  produced : List UInt8
  zipPath : Str
  zipFiles : List Str

/-- These files, and nothing else yet. -/
def ArchiveState.start {Place : Type} (files : FileTree Place) : ArchiveState Place where
  files
  unread _ := []
  tarPath := []
  entries := []
  tarBytes := []
  gzPath := []
  consumed := []
  produced := []
  zipPath := []
  zipFiles := []

/-- A call that succeeds. `zip_file_add` replaces a file of the same name, and `zip_close` removes
an archive without files. The method that `zip_set_file_compression` is given may be none. -/
inductive ArchiveStep {Place : Type} [DecidableEq Place] (locate : Str → Place)
    (w : ArchiveState Place) : ServerEvent → ArchiveState Place → Prop where
  | tarOpened (path : Str) :
      ArchiveStep locate w ⟨.compression (.archiveWriteOpenFilename path), true⟩
        { w with
          files := w.files.set (locate path) (some (.file []))
          tarPath := path
          entries := [] }
  | size (path : Str) (content : List UInt8) : w.files (locate path) = some (.file content) →
      ArchiveStep locate w ⟨.compression (.fileSize path), Except.ok content.length⟩ w
  | header (path : Str) (size : Nat) :
      ArchiveStep locate w ⟨.compression (.archiveWriteHeader path size), true⟩
        { w with entries := w.entries ++ [⟨path, size, []⟩] }
  | data (bytes : List UInt8) (before : List ArchiveEntry) (entry : ArchiveEntry) :
      w.entries = before ++ [entry] →
      ArchiveStep locate w ⟨.compression (.archiveWriteData bytes), true⟩
        { w with entries := before ++ [{ entry with data := entry.data ++ bytes }] }
  | tarClosed (bytes : List UInt8) :
      ArchiveStep locate w ⟨.compression .archiveWriteClose, true⟩
        { w with
          files := w.files.set (locate w.tarPath) (some (.file bytes))
          tarBytes := bytes }
  | openedToRead (path : Str) (content : List UInt8) :
      w.files (locate path) = some (.file content) →
      ArchiveStep locate w ⟨.compression (.fopen path .rb), true⟩
        { w with unread := Function.update w.unread path content }
  | openedToWrite (path : Str) :
      ArchiveStep locate w ⟨.compression (.fopen path .wb), true⟩
        { w with files := w.files.set (locate path) (some (.file [])) }
  | block (path : Str) (bytes rest : List UInt8) : bytes ≠ [] → w.unread path = bytes ++ rest →
      ArchiveStep locate w ⟨.compression (.fread path), FreadResult.block bytes⟩
        { w with unread := Function.update w.unread path rest }
  | atEnd (path : Str) : w.unread path = [] →
      ArchiveStep locate w ⟨.compression (.fread path), FreadResult.eof⟩ w
  | wrote (path : Str) (bytes content : List UInt8) :
      w.files (locate path) = some (.file content) →
      ArchiveStep locate w ⟨.compression (.fwrite path bytes), true⟩
        { w with files := w.files.set (locate path) (some (.file (content ++ bytes))) }
  | closed (path : Str) : ArchiveStep locate w ⟨.compression (.fclose path), true⟩ w
  | zstdCreated : ArchiveStep locate w ⟨.compression .zstdCreateCCtx, true⟩ w
  | zstd (bytes : List UInt8) (level : Int) (out : List UInt8) :
      ArchiveStep locate w ⟨.compression (.zstdCompressCCtx bytes level), some out⟩
        { w with consumed := w.consumed ++ bytes, produced := w.produced ++ out }
  | lz4 (bytes out : List UInt8) :
      ArchiveStep locate w ⟨.compression (.lz4CompressDefault bytes), some out⟩
        { w with consumed := w.consumed ++ bytes, produced := w.produced ++ out }
  | lzmaCreated (level : Int) :
      ArchiveStep locate w ⟨.compression (.lzmaEasyEncoder level), true⟩ w
  | lzmaRun (input : List UInt8) (availIn : Nat) (output : List UInt8) : availIn ≤ input.length →
      ArchiveStep locate w
        ⟨.compression (.lzmaCode .run input), (⟨.ok, availIn, output⟩ : LzmaStep)⟩
        { w with
          consumed := w.consumed ++ input.take (input.length - availIn)
          produced := w.produced ++ output }
  | lzmaFinish (ret : LzmaRet) (availIn : Nat) (output : List UInt8) : ret ≠ .error →
      ArchiveStep locate w
        ⟨.compression (.lzmaCode .finish []), (⟨ret, availIn, output⟩ : LzmaStep)⟩
        { w with produced := w.produced ++ output }
  | gzOpened (path : Str) :
      ArchiveStep locate w ⟨.compression (.gzdopen path), true⟩ { w with gzPath := path }
  | gzSet (level : Int) : ArchiveStep locate w ⟨.compression (.gzsetparams level), true⟩ w
  | gzWrote (bytes : List UInt8) :
      ArchiveStep locate w ⟨.compression (.gzwrite bytes), true⟩
        { w with consumed := w.consumed ++ bytes }
  | gzClosed (out : List UInt8) :
      ArchiveStep locate w ⟨.compression .gzclose, true⟩
        { w with
          files := w.files.set (locate w.gzPath) (some (.file out))
          produced := out }
  | zipOpened (path : Str) :
      ArchiveStep locate w ⟨.compression (.zipOpen path), true⟩
        { w with zipPath := path, zipFiles := [] }
  | zipSource (path : Str) : ArchiveStep locate w ⟨.compression (.zipSourceFile path), true⟩ w
  | zipAdded (path : Str) :
      ArchiveStep locate w ⟨.compression (.zipFileAdd path), true⟩
        { w with zipFiles := if path ∈ w.zipFiles then w.zipFiles else w.zipFiles ++ [path] }
  | zipSet (level : Int) (known : Bool) :
      ArchiveStep locate w ⟨.compression (.zipSetFileCompression level), known⟩ w
  | zipClosed (bytes : List UInt8) :
      (∀ path ∈ w.zipFiles, ∃ content, w.files (locate path) = some (.file content)) →
      ArchiveStep locate w ⟨.compression .zipClose, true⟩
        { w with
          files := w.files.set (locate w.zipPath)
            (if w.zipFiles = [] then none else some (.file bytes))
          entries := w.zipFiles.map (entryOf locate w.files)
          produced := bytes }
  | removed (path : Str) :
      ArchiveStep locate w ⟨.remove path, true⟩
        { w with files := w.files.set (locate path) none }
  | pathExists (path : Str) :
      ArchiveStep locate w ⟨.pathExists path, Except.ok (w.files (locate path)).isSome⟩ w
  | listed (path : Str) (entries : List DirEntry) :
      ArchiveStep locate w ⟨.recursiveDirectoryIterator path, Except.ok entries⟩ w
  | answered (bytes : List UInt8) : ArchiveStep locate w ⟨.send bytes, ()⟩ w

/-! ### Rules -/

section Rules

variable {Place : Type} [DecidableEq Place] {locate : Str → Place} {w : ArchiveState Place}
  {α : Type} {Q : α → ArchiveState Place → Prop}

theorem ensures_sys {op : SysCall} {f : op.Answer → ServerProg α}
    (h : ∀ ans t, ArchiveStep locate w ⟨op, ans⟩ t → Ensures (ArchiveStep locate) (f ans) t Q) :
    Ensures (ArchiveStep locate) (sys op >>= f) w Q :=
  .call h

/-- The loop over a stream. The invariant has what was read, and is not about the streams. -/
theorem ensures_whileFread {path : Str} {body : List UInt8 → ServerProg Bool} {fuel : Nat}
    {I : List UInt8 → ArchiveState Place → Prop} (start : I [] w)
    (stable : ∀ done v unread, I done v → I done { v with unread })
    (hbody : ∀ done block v, I done v →
      Ensures (ArchiveStep locate) (body block) v fun goOn u =>
        goOn = true ∧ I (done ++ block) u ∧ u.unread = v.unread) :
    Ensures (ArchiveStep locate) (whileFread path body fuel) w fun finished v =>
      finished = true ∧ I (w.unread path) v := by
  suffices h : ∀ done v, I done v → done ++ v.unread path = w.unread path →
      Ensures (ArchiveStep locate) (whileFread path body fuel) v fun finished v =>
        finished = true ∧ I (w.unread path) v from h [] w start rfl
  induction fuel with
  | zero => exact fun _ _ _ _ => .fail _
  | succ fuel ih =>
      intro done v now hunread
      refine ensures_sys fun ans t step => ?_
      cases step with
      | block _ bytes rest hne hblock =>
          obtain ⟨b, bs, rfl⟩ := List.exists_cons_of_ne_nil hne
          refine .bind ((hbody done (b :: bs) _ (stable done v _ now)).mono ?_)
          rintro goOn u ⟨rfl, next, same⟩
          have hrest : u.unread path = rest := (congrFun same path).trans (Function.update_self ..)
          refine ih (done ++ (b :: bs)) u next ?_
          rw [hrest, List.append_assoc, ← hblock, hunread]
      | atEnd _ hend =>
          rw [hend, List.append_nil] at hunread
          exact .ret ⟨rfl, hunread ▸ now⟩

theorem ensures_closeAll (paths : List Str) :
    Ensures (ArchiveStep locate) (closeAll paths) w fun _ v => v = w := by
  refine .mono (.foldlM (I := fun _ _ v => v = w) rfl ?_) fun _ _ h => h
  rintro _ path _ _ v - rfl
  refine ensures_sys fun ans t step => ?_
  cases step
  exact .ret rfl

end Rules

/-! ### The tar file -/

section Tar

variable {Place : Type} {locate : Str → Place} {w v : ArchiveState Place}
  {fuel : Nat} {tarPath : Str}

/-- These entries are in the tar archive that is being written, and no file but its own has
changed. -/
structure TarHas (locate : Str → Place) (tarPath : Str) (entries : List ArchiveEntry)
    (w v : ArchiveState Place) : Prop where
  entries : v.entries = entries
  target : v.tarPath = tarPath
  others : ∀ place, place ≠ locate tarPath → v.files place = w.files place
  consumed : v.consumed = w.consumed
  produced : v.produced = w.produced

theorem TarHas.read {entries : List ArchiveEntry} (h : TarHas locate tarPath entries w v)
    (unread : Str → List UInt8) : TarHas locate tarPath entries w { v with unread } where
  entries := h.entries
  target := h.target
  others := h.others
  consumed := h.consumed
  produced := h.produced

variable [DecidableEq Place] {t : ArchiveState Place} {entries : List ArchiveEntry} {path : Str}

theorem TarHas.header (h : TarHas locate tarPath entries w v) {size : Nat} {ans : Bool}
    (step : ArchiveStep locate v ⟨.compression (.archiveWriteHeader path size), ans⟩ t) :
    TarHas locate tarPath (entries ++ [⟨path, size, []⟩]) w t := by
  cases step
  exact ⟨congrArg (· ++ _) h.entries, h.target, h.others, h.consumed, h.produced⟩

theorem TarHas.opened (h : TarHas locate tarPath entries w v) {ans : Bool} {content : List UInt8}
    (hfile : w.files (locate path) = some (.file content)) (hpath : locate path ≠ locate tarPath)
    (step : ArchiveStep locate v ⟨.compression (.fopen path .rb), ans⟩ t) :
    ans = true ∧ TarHas locate tarPath entries w t ∧ t.unread path = content := by
  cases step with
  | openedToRead _ bytes hbytes =>
      cases ((h.others _ hpath).trans hfile).symm.trans hbytes
      exact ⟨rfl, h.read _, Function.update_self ..⟩

theorem TarHas.data {before : List ArchiveEntry} {entry : ArchiveEntry} {bytes : List UInt8}
    {ans : Bool} (h : TarHas locate tarPath (before ++ [entry]) w v)
    (step : ArchiveStep locate v ⟨.compression (.archiveWriteData bytes), ans⟩ t) :
    TarHas locate tarPath (before ++ [{ entry with data := entry.data ++ bytes }]) w t ∧
      t.unread = v.unread := by
  cases step with
  | data _ front last hentries =>
      obtain ⟨rfl, hlast⟩ := List.append_inj' (h.entries.symm.trans hentries) rfl
      cases hlast
      exact ⟨⟨rfl, h.target, h.others, h.consumed, h.produced⟩, rfl⟩

/-- One file, block by block. That its size is known shows that it is one. -/
theorem ensures_addTarEntry (hpath : locate path ≠ locate tarPath)
    (now : TarHas locate tarPath entries w v) :
    Ensures (ArchiveStep locate) (addTarEntry fuel path) v fun _ u =>
      TarHas locate tarPath (entries ++ [entryOf locate w.files path]) w u := by
  refine ensures_sys fun ans t step => ?_
  cases step with
  | size _ content hcontent =>
  have hfile : w.files (locate path) = some (.file content) :=
    (now.others _ hpath).symm.trans hcontent
  have hentry : entryOf locate w.files path = ⟨path, content.length, content⟩ := by
    simp only [entryOf, FileTree.content, hfile]
  rw [hentry]
  refine ensures_sys fun ans t step => ?_
  have headed := now.header step
  refine ensures_sys fun ans u step => ?_
  obtain ⟨rfl, opened, hunread⟩ := headed.opened hfile hpath step
  refine .bind ((ensures_whileFread
    (I := fun read u => TarHas locate tarPath (entries ++ [⟨path, content.length, read⟩]) w u)
    opened (fun _ _ _ h => h.read _) ?_).mono ?_)
  · intro read block v here
    refine ensures_sys fun ans t step => ?_
    obtain ⟨next, same⟩ := here.data step
    exact .ret ⟨rfl, next, same⟩
  · rintro finished v ⟨-, here⟩
    refine ensures_sys fun ans t step => ?_
    cases step
    rw [hunread] at here
    exact .ret here

/-- The tar file is made of the listed files. -/
structure TarMade (locate : Str → Place) (files : List Str) (tarPath : Str)
    (w v : ArchiveState Place) : Prop where
  entries : v.entries = files.map (entryOf locate w.files)
  tar : v.files (locate tarPath) = some (.file v.tarBytes)
  others : ∀ place, place ≠ locate tarPath → v.files place = w.files place
  consumed : v.consumed = w.consumed
  produced : v.produced = w.produced

theorem ensures_createTarArchive {files : List Str}
    (hpaths : ∀ path ∈ files, locate path ≠ locate tarPath) :
    Ensures (ArchiveStep locate) (createTarArchive fuel files tarPath) w fun made v =>
      made = true ∧ TarMade locate files tarPath w v := by
  refine ensures_sys fun ans t step => ?_
  have start : TarHas locate tarPath [] w t := by
    cases step
    exact ⟨rfl, rfl, fun _ hplace => FileTree.set_of_ne _ hplace, rfl, rfl⟩
  refine .bind ((Ensures.foldlM
    (I := fun done _ v => TarHas locate tarPath (done.map (entryOf locate w.files)) w v)
    start ?_).mono ?_)
  · intro done path rest _ v hfilesEq now
    have hpath : path ∈ files := by rw [hfilesEq]; simp
    rw [List.map_append]
    exact ensures_addTarEntry (hpaths path hpath) now
  · intro _ v whole
    refine ensures_sys fun ans u step => ?_
    cases step with
    | tarClosed bytes =>
    refine .ret ⟨rfl, whole.entries, ?_, fun place hplace => ?_, whole.consumed, whole.produced⟩
    · rw [← whole.target]
      exact FileTree.set_self _
    · have hother : place ≠ locate v.tarPath := whole.target ▸ hplace
      exact (FileTree.set_of_ne _ hother).trans (whole.others place hplace)

end Tar

/-! ### The compressors -/

section Compress

variable {Place : Type} {locate : Str → Place} {w v : ArchiveState Place} {fuel : Nat}
  {tarPath archivePath : Str} {done : List UInt8}

/-- The compressor has been given these bytes since `w`, the archive is what it made, and no
other file has changed. -/
structure Compressed (locate : Str → Place) (archivePath : Str) (done : List UInt8)
    (w v : ArchiveState Place) : Prop where
  consumed : v.consumed = done
  archive : v.files (locate archivePath) = some (.file v.produced)
  others : ∀ place, place ≠ locate archivePath → v.files place = w.files place
  entries : v.entries = w.entries
  tarBytes : v.tarBytes = w.tarBytes

theorem Compressed.read (h : Compressed locate archivePath done w v)
    (unread : Str → List UInt8) : Compressed locate archivePath done w { v with unread } where
  consumed := h.consumed
  archive := h.archive
  others := h.others
  entries := h.entries
  tarBytes := h.tarBytes

variable [DecidableEq Place] {t : ArchiveState Place}

/-- Output that is written to the archive. -/
theorem Compressed.wrote {out consumed : List UInt8} {ans : Bool}
    (h : Compressed locate archivePath done w v)
    (step : ArchiveStep locate { v with consumed, produced := v.produced ++ out }
      ⟨.compression (.fwrite archivePath out), ans⟩ t) :
    Compressed locate archivePath consumed w t ∧ t.unread = v.unread := by
  cases step with
  | wrote _ _ before hbefore =>
      cases h.archive.symm.trans hbefore
      refine ⟨⟨rfl, FileTree.set_self _, fun place hplace => ?_, h.entries, h.tarBytes⟩, rfl⟩
      exact (FileTree.set_of_ne _ hplace).trans (h.others place hplace)

/-- The archive is new, and nothing was compressed yet. -/
theorem Compressed.opened {ans : Bool} (fresh : w.consumed = [] ∧ w.produced = [])
    (step : ArchiveStep locate w ⟨.compression (.fopen archivePath .wb), ans⟩ t) :
    ans = true ∧ Compressed locate archivePath [] w t := by
  cases step with
  | openedToWrite _ =>
      refine ⟨rfl, fresh.1, ?_, fun _ hplace => FileTree.set_of_ne _ hplace, rfl, rfl⟩
      rw [fresh.2]
      exact FileTree.set_self _

/-- The tar file is read from its start. -/
theorem Compressed.reopened {ans : Bool} (h : Compressed locate archivePath done w v)
    (htar : w.files (locate tarPath) = some (.file w.tarBytes))
    (hne : locate tarPath ≠ locate archivePath)
    (step : ArchiveStep locate v ⟨.compression (.fopen tarPath .rb), ans⟩ t) :
    ans = true ∧ Compressed locate archivePath done w t ∧ t.unread tarPath = w.tarBytes := by
  cases step with
  | openedToRead _ bytes hbytes =>
      cases ((h.others _ hne).trans htar).symm.trans hbytes
      exact ⟨rfl, h.read _, Function.update_self ..⟩

/-- The whole tar file went through the compressor, the archive is what came out, and the tar
file is gone. -/
structure Archived (locate : Str → Place) (tarPath archivePath : Str)
    (w v : ArchiveState Place) : Prop where
  consumed : v.consumed = w.tarBytes
  archive : v.files (locate archivePath) = some (.file v.produced)
  tar : v.files (locate tarPath) = none
  others : ∀ place, place ≠ locate archivePath → place ≠ locate tarPath →
    v.files place = w.files place
  entries : v.entries = w.entries
  tarBytes : v.tarBytes = w.tarBytes

theorem Compressed.removed {ans : Bool} (h : Compressed locate archivePath w.tarBytes w v)
    (hne : locate tarPath ≠ locate archivePath)
    (step : ArchiveStep locate v ⟨.remove tarPath, ans⟩ t) :
    Archived locate tarPath archivePath w t := by
  cases step with
  | removed _ =>
      refine ⟨h.consumed, ?_, FileTree.set_self _, fun place hplace htar => ?_, h.entries,
        h.tarBytes⟩
      · exact (FileTree.set_of_ne _ hne.symm).trans h.archive
      · exact (FileTree.set_of_ne _ htar).trans (h.others place hplace)

/-- The loop over the tar file, and what follows it. -/
theorem ensures_blocks {body : List UInt8 → ServerProg Bool} (paths : List Str)
    (now : Compressed locate archivePath [] w v) (hunread : v.unread tarPath = w.tarBytes)
    (hne : locate tarPath ≠ locate archivePath)
    (hbody : ∀ done block v, Compressed locate archivePath done w v →
      Ensures (ArchiveStep locate) (body block) v fun goOn u =>
        goOn = true ∧ Compressed locate archivePath (done ++ block) w u ∧ u.unread = v.unread) :
    Ensures (ArchiveStep locate) (do
      let finished ← whileFread tarPath body fuel
      closeAll paths
      if !finished then .ret false
      else
        let _ ← sys (.remove tarPath)
        .ret true) v fun success u => success = true ∧ Archived locate tarPath archivePath w u := by
  refine .bind ((ensures_whileFread now (fun _ _ _ h => h.read _) hbody).mono ?_)
  rintro finished u ⟨rfl, here⟩
  rw [hunread] at here
  refine .bind ((ensures_closeAll paths).mono ?_)
  rintro _ _ rfl
  refine ensures_sys fun ans t step => ?_
  exact .ret ⟨rfl, here.removed hne step⟩

theorem ensures_lzmaRun {input : List UInt8} (now : Compressed locate archivePath done w v) :
    Ensures (ArchiveStep locate) (lzmaRun archivePath input fuel) v fun goOn u =>
      goOn = true ∧ Compressed locate archivePath (done ++ input) w u ∧ u.unread = v.unread := by
  induction fuel generalizing input done v with
  | zero => exact .fail _
  | succ fuel ih =>
      refine ensures_sys fun ans t step => ?_
      cases step with
      | lzmaRun _ availIn output hleft =>
      rw [if_neg (by simp)]
      refine ensures_sys fun ans t step => ?_
      obtain ⟨next, same⟩ := now.wrote step
      rw [now.consumed] at next
      dsimp only
      split
      · rename_i hall
        rw [hall, Nat.sub_zero, List.take_length] at next
        exact .ret ⟨rfl, next, same⟩
      · refine (ih next).mono ?_
        rintro goOn u ⟨rfl, later, same'⟩
        rw [List.append_assoc, List.take_append_drop] at later
        exact ⟨rfl, later, same'.trans same⟩

/-- The last output of the stream. -/
theorem ensures_lzmaFinish (now : Compressed locate archivePath done w v) :
    Ensures (ArchiveStep locate) (lzmaFinish archivePath fuel) v fun ret u =>
      ret = .streamEnd ∧ Compressed locate archivePath done w u := by
  induction fuel generalizing v with
  | zero => exact .fail _
  | succ fuel ih =>
      refine ensures_sys fun ans t step => ?_
      cases step with
      | lzmaFinish ret availIn output hret =>
      refine ensures_sys fun ans t step => ?_
      obtain ⟨next, -⟩ := now.wrote step
      rw [now.consumed] at next
      cases ret with
      | ok => exact ih next
      | streamEnd => exact .ret ⟨rfl, next⟩
      | error => exact absurd rfl hret

end Compress

/-! ### The back ends -/

section BackEnds

variable {Place : Type} {locate : Str → Place} {w v : ArchiveState Place} {fuel : Nat}
  {files : List Str} {tarPath archivePath : Str}

/-- The archive is what the compressor made of the tar file, which was made of the listed
files. -/
structure HoldsFiles (locate : Str → Place) (files : List Str) (tarPath archivePath : Str)
    (w v : ArchiveState Place) : Prop where
  entries : v.entries = files.map (entryOf locate w.files)
  consumed : v.consumed = v.tarBytes
  archive : v.files (locate archivePath) = some (.file v.produced)
  tar : v.files (locate tarPath) = none
  others : ∀ place, place ≠ locate archivePath → place ≠ locate tarPath →
    v.files place = w.files place

theorem Archived.holdsFiles {u : ArchiveState Place} (h : Archived locate tarPath archivePath v u)
    (made : TarMade locate files tarPath w v) :
    HoldsFiles locate files tarPath archivePath w u where
  entries := h.entries.trans made.entries
  consumed := h.consumed.trans h.tarBytes.symm
  archive := h.archive
  tar := h.tar
  others place harchive htar := (h.others place harchive htar).trans (made.others place htar)

variable [DecidableEq Place]

/-- What the back ends of the tar archives have in common. -/
theorem ensures_tarBackEnd {rest : Bool → ServerProg Bool}
    (fresh : w.consumed = [] ∧ w.produced = [])
    (hpaths : ∀ path ∈ files, locate path ≠ locate tarPath)
    (later : ∀ v u, v.files (locate tarPath) = some (.file v.tarBytes) →
      Compressed locate archivePath [] v u →
      Ensures (ArchiveStep locate) (rest true) u fun success x =>
        success = true ∧ Archived locate tarPath archivePath v x) :
    Ensures (ArchiveStep locate) (do
      let made ← createTarArchive fuel files tarPath
      if !made then .ret false
      else
        let archiveFile : Bool ← lib (.fopen archivePath .wb)
        if !archiveFile then .ret false else rest archiveFile) w fun success x =>
          success = true ∧ HoldsFiles locate files tarPath archivePath w x := by
  refine .bind ((ensures_createTarArchive hpaths).mono ?_)
  rintro made v ⟨rfl, hmade⟩
  refine ensures_sys fun ans u step => ?_
  have fresh' : v.consumed = [] ∧ v.produced = [] :=
    ⟨hmade.consumed.trans fresh.1, hmade.produced.trans fresh.2⟩
  obtain ⟨rfl, opened⟩ := Compressed.opened fresh' step
  refine (later v u hmade.tar opened).mono ?_
  rintro success x ⟨rfl, archived⟩
  exact ⟨rfl, archived.holdsFiles hmade⟩

variable {archiveBasePath : Str} (level : Int)

theorem ensures_compressWithZstd (fresh : w.consumed = [] ∧ w.produced = [])
    (hpaths : ∀ path ∈ files, locate path ≠ locate (archiveBasePath ++ ascii ".tar"))
    (hne : locate (archiveBasePath ++ ascii ".tar") ≠
      locate (archiveBasePath ++ ascii ".tar.zst")) :
    Ensures (ArchiveStep locate) (compressWithZstd fuel files archiveBasePath level) w
      fun success x => success = true ∧ HoldsFiles locate files
        (archiveBasePath ++ ascii ".tar") (archiveBasePath ++ ascii ".tar.zst") w x := by
  refine ensures_tarBackEnd fresh hpaths fun v u htar now => ?_
  refine ensures_sys fun ans t step => ?_
  cases step
  refine ensures_sys fun ans t step => ?_
  obtain ⟨rfl, opened, hunread⟩ := now.reopened htar hne step
  refine ensures_blocks _ opened hunread hne fun done block x here => ?_
  refine ensures_sys fun ans t step => ?_
  cases step
  refine ensures_sys fun ans t step => ?_
  obtain ⟨next, same⟩ := here.wrote step
  exact .ret ⟨rfl, here.consumed ▸ next, same⟩

theorem ensures_compressWithLz4 (fresh : w.consumed = [] ∧ w.produced = [])
    (hpaths : ∀ path ∈ files, locate path ≠ locate (archiveBasePath ++ ascii ".tar"))
    (hne : locate (archiveBasePath ++ ascii ".tar") ≠
      locate (archiveBasePath ++ ascii ".tar.lz4")) :
    Ensures (ArchiveStep locate) (compressWithLz4 fuel files archiveBasePath level) w
      fun success x => success = true ∧ HoldsFiles locate files
        (archiveBasePath ++ ascii ".tar") (archiveBasePath ++ ascii ".tar.lz4") w x := by
  refine ensures_tarBackEnd fresh hpaths fun v u htar now => ?_
  refine ensures_sys fun ans t step => ?_
  obtain ⟨rfl, opened, hunread⟩ := now.reopened htar hne step
  refine ensures_blocks _ opened hunread hne fun done block x here => ?_
  refine ensures_sys fun ans t step => ?_
  cases step
  refine ensures_sys fun ans t step => ?_
  obtain ⟨next, same⟩ := here.wrote step
  exact .ret ⟨rfl, here.consumed ▸ next, same⟩

theorem ensures_compressWithXz (fresh : w.consumed = [] ∧ w.produced = [])
    (hpaths : ∀ path ∈ files, locate path ≠ locate (archiveBasePath ++ ascii ".tar"))
    (hne : locate (archiveBasePath ++ ascii ".tar") ≠
      locate (archiveBasePath ++ ascii ".tar.xz")) :
    Ensures (ArchiveStep locate) (compressWithXz fuel files archiveBasePath level) w
      fun success x => success = true ∧ HoldsFiles locate files
        (archiveBasePath ++ ascii ".tar") (archiveBasePath ++ ascii ".tar.xz") w x := by
  refine ensures_tarBackEnd fresh hpaths fun v u htar now => ?_
  refine ensures_sys fun ans t step => ?_
  cases step
  refine ensures_sys fun ans t step => ?_
  obtain ⟨rfl, opened, hunread⟩ := now.reopened htar hne step
  refine .bind ((ensures_whileFread (I := fun done x => Compressed locate _ done v x) opened
    (fun _ _ _ h => h.read _) fun done block x here => ensures_lzmaRun here).mono ?_)
  rintro finished x ⟨rfl, here⟩
  rw [hunread] at here
  refine .bind ((ensures_closeAll _).mono ?_)
  rintro _ _ rfl
  refine .bind ((ensures_lzmaFinish here).mono ?_)
  rintro ret y ⟨rfl, whole⟩
  refine .bind ((ensures_closeAll _).mono ?_)
  rintro _ _ rfl
  refine ensures_sys fun ans t step => ?_
  exact .ret ⟨rfl, whole.removed hne step⟩

/-- zlib has been given these bytes, and no file has changed. -/
structure Deflated (archivePath : Str) (done : List UInt8) (w v : ArchiveState Place) : Prop where
  consumed : v.consumed = done
  gzPath : v.gzPath = archivePath
  files : v.files = w.files
  entries : v.entries = w.entries
  tarBytes : v.tarBytes = w.tarBytes

omit [DecidableEq Place] in
theorem Deflated.read {done : List UInt8} (h : Deflated archivePath done w v)
    (unread : Str → List UInt8) : Deflated archivePath done w { v with unread } where
  consumed := h.consumed
  gzPath := h.gzPath
  files := h.files
  entries := h.entries
  tarBytes := h.tarBytes

/-- The archive is written when zlib is closed. -/
theorem Deflated.closed {done : List UInt8} {u t : ArchiveState Place} {ans : Bool}
    (h : Deflated archivePath done u v) (opened : Compressed locate archivePath [] w u)
    (step : ArchiveStep locate v ⟨.compression .gzclose, ans⟩ t) :
    Compressed locate archivePath done w t := by
  cases step with
  | gzClosed out =>
      refine ⟨h.consumed, ?_, fun place hplace => ?_, h.entries.trans opened.entries,
        h.tarBytes.trans opened.tarBytes⟩
      · rw [← h.gzPath]
        exact FileTree.set_self _
      · have hother : place ≠ locate v.gzPath := h.gzPath ▸ hplace
        exact (FileTree.set_of_ne _ hother).trans
          ((congrFun h.files place).trans (opened.others place hplace))

/-- zlib writes to the file that was opened for it. -/
theorem ensures_compressWithGzip (fresh : w.consumed = [] ∧ w.produced = [])
    (hpaths : ∀ path ∈ files, locate path ≠ locate (archiveBasePath ++ ascii ".tar"))
    (hne : locate (archiveBasePath ++ ascii ".tar") ≠
      locate (archiveBasePath ++ ascii ".tar.gz")) :
    Ensures (ArchiveStep locate) (compressWithGzip fuel files archiveBasePath level) w
      fun success x => success = true ∧ HoldsFiles locate files
        (archiveBasePath ++ ascii ".tar") (archiveBasePath ++ ascii ".tar.gz") w x := by
  refine ensures_tarBackEnd fresh hpaths fun v u htar now => ?_
  refine ensures_sys fun ans t step => ?_
  have start : Deflated (archiveBasePath ++ ascii ".tar.gz") [] u t ∧ ans = true := by
    cases step
    exact ⟨⟨now.consumed, rfl, rfl, rfl, rfl⟩, rfl⟩
  obtain ⟨start, rfl⟩ := start
  refine ensures_sys fun ans t' step => ?_
  cases step
  refine ensures_sys fun ans x step => ?_
  have reopened : ans = true ∧ Deflated (archiveBasePath ++ ascii ".tar.gz") [] u x ∧
      x.unread (archiveBasePath ++ ascii ".tar") = v.tarBytes := by
    cases step with
    | openedToRead _ bytes hbytes =>
        rw [start.files, now.others _ hne, htar] at hbytes
        cases hbytes
        exact ⟨rfl, start.read _, Function.update_self ..⟩
  obtain ⟨rfl, reading, hunread⟩ := reopened
  refine .bind ((ensures_whileFread (I := fun done x => Deflated _ done u x) reading
    (fun _ _ _ h => h.read _) fun done block y here => ?_).mono ?_)
  · refine ensures_sys fun ans z step => ?_
    cases step
    exact .ret ⟨rfl, ⟨congrArg (· ++ block) here.consumed, here.gzPath, here.files, here.entries,
      here.tarBytes⟩, rfl⟩
  rintro finished y ⟨rfl, here⟩
  rw [hunread] at here
  refine .bind ((ensures_closeAll _).mono ?_)
  rintro _ _ rfl
  refine ensures_sys fun ans z step => ?_
  have whole := here.closed now step
  refine ensures_sys fun ans z step => ?_
  exact .ret ⟨rfl, whole.removed hne step⟩

end BackEnds

/-! ### Zip archives -/

section Zip

variable {Place : Type} [DecidableEq Place] {locate : Str → Place} {w v : ArchiveState Place}
  {archivePath : Str}

/-- Every file is in the archive, once, unless there is none. -/
structure ZipHolds (locate : Str → Place) (files : List Str) (archivePath : Str)
    (w v : ArchiveState Place) : Prop where
  entries : v.entries = files.eraseDups.map (entryOf locate w.files)
  archive : v.files (locate archivePath) = if files = [] then none else some (.file v.produced)
  others : ∀ place, place ≠ locate archivePath → v.files place = w.files place

/-- libzip has been told of these files, and none has changed. -/
structure ZipHas (archivePath : Str) (done : List Str) (w v : ArchiveState Place) : Prop where
  zipFiles : v.zipFiles = done.eraseDups
  zipPath : v.zipPath = archivePath
  files : v.files = w.files

omit [DecidableEq Place] in
theorem eraseDups_append_singleton (done : List Str) (path : Str) :
    (done ++ [path]).eraseDups =
      if path ∈ done.eraseDups then done.eraseDups else done.eraseDups ++ [path] := by
  rw [List.eraseDups_append]
  by_cases h : path ∈ done <;> simp [h, List.removeAll, List.eraseDups_cons]

theorem ZipHas.added {done : List Str} {path : Str} {t : ArchiveState Place} {ans : Bool}
    (h : ZipHas archivePath done w v)
    (step : ArchiveStep locate v ⟨.compression (.zipFileAdd path), ans⟩ t) :
    ans = true ∧ ZipHas archivePath (done ++ [path]) w t := by
  cases step
  refine ⟨rfl, ?_, h.zipPath, h.files⟩
  rw [eraseDups_append_singleton, ← h.zipFiles]

/-- The archive is written when it is closed. -/
theorem ZipHas.closed {files : List Str} {t : ArchiveState Place} {ans : Bool}
    (h : ZipHas archivePath files w v)
    (step : ArchiveStep locate v ⟨.compression .zipClose, ans⟩ t) :
    ZipHolds locate files archivePath w t := by
  cases step with
  | zipClosed bytes =>
  have hempty : v.zipFiles = [] ↔ files = [] := by
    rw [h.zipFiles, List.eq_nil_iff_forall_not_mem, List.eq_nil_iff_forall_not_mem]
    simp only [List.mem_eraseDups]
  refine ⟨?_, ?_, fun place hplace => ?_⟩
  · rw [h.zipFiles, h.files]
  · rw [← h.zipPath]
    exact (FileTree.set_self _).trans (if_congr hempty rfl rfl)
  · rw [← h.zipPath] at hplace
    exact (FileTree.set_of_ne _ hplace).trans (congrFun h.files place)

theorem ensures_addZipEntries (level : Int) {rest done : List Str}
    (now : ZipHas archivePath done w v) :
    Ensures (ArchiveStep locate) (addZipEntries level rest) v fun added u =>
      added = true ∧ ZipHas archivePath (done ++ rest) w u := by
  induction rest generalizing done v with
  | nil => exact .ret ⟨rfl, (List.append_nil done).symm ▸ now⟩
  | cons path rest ih =>
      refine ensures_sys fun ans t step => ?_
      cases step
      refine ensures_sys fun ans t step => ?_
      obtain ⟨rfl, next⟩ := now.added step
      refine ensures_sys fun ans u step => ?_
      cases step
      rw [List.append_cons done path rest]
      exact ih next

theorem ensures_compressWithZip (files : List Str) (archiveBasePath : Str) (level : Int) :
    Ensures (ArchiveStep locate) (compressWithZip files archiveBasePath level) w
      fun success v => success = true ∧
        ZipHolds locate files (archiveBasePath ++ ascii ".zip") w v := by
  refine ensures_sys fun ans t step => ?_
  cases step
  have opened : ZipHas (archiveBasePath ++ ascii ".zip") [] w
      { w with zipPath := archiveBasePath ++ ascii ".zip", zipFiles := [] } := ⟨rfl, rfl, rfl⟩
  refine .bind ((ensures_addZipEntries level opened).mono ?_)
  rintro added v ⟨rfl, now⟩
  refine ensures_sys fun ans t step => ?_
  exact .ret ⟨rfl, now.closed step⟩

end Zip

/-! ### The request -/

section Request

variable {Place : Type} [DecidableEq Place] {naming : Naming Place} {w : ArchiveState Place}
  {fuel : Nat} {session : Session} {p : Buffer}

/-- The archive of a format holds the files. -/
def ArchiveHolds (locate : Str → Place) (format : Format) (files : List Str)
    (archiveBasePath : Str) (w v : ArchiveState Place) : Prop :=
  match tarSuffix format with
  | some suffix => HoldsFiles locate files (archiveBasePath ++ ascii ".tar")
      (archiveBasePath ++ suffix) w v
  | none => ZipHolds locate files (archiveBasePath ++ ascii ".zip") w v

/-- The temporary file of a tar format is none of the files. -/
def TarApart (locate : Str → Place) (format : Format) (files : List Str)
    (archiveBasePath : Str) : Prop :=
  tarSuffix format ≠ none →
    ∀ path ∈ files, locate path ≠ locate (archiveBasePath ++ ascii ".tar")

theorem ensures_compressWith (format : Format) {files : List Str} {archiveBasePath : Str}
    (fresh : w.consumed = [] ∧ w.produced = [])
    (hapart : TarApart naming.locate format files archiveBasePath) (level : Int) :
    Ensures (ArchiveStep naming.locate)
      (compressWith fuel (some format) files archiveBasePath level) w fun success v =>
        success = true ∧ ArchiveHolds naming.locate format files archiveBasePath w v := by
  have hne {suffix : Str} (hsuffix : tarSuffix format = some suffix) :=
    naming.tar_ne hsuffix archiveBasePath
  cases format with
  | zstd => exact ensures_compressWithZstd level fresh (hapart nofun) (hne rfl)
  | gzip => exact ensures_compressWithGzip level fresh (hapart nofun) (hne rfl)
  | xz => exact ensures_compressWithXz level fresh (hapart nofun) (hne rfl)
  | lzma => exact ensures_compressWithXz level fresh (hapart nofun) (hne rfl)
  | lz4 => exact ensures_compressWithLz4 level fresh (hapart nofun) (hne rfl)
  | zip => exact ensures_compressWithZip files archiveBasePath level

theorem ensures_listedFiles (files : List Str) (is : List Nat) :
    Ensures (ArchiveStep naming.locate) (listedFiles session p files is) w fun _ v => v = w := by
  induction is generalizing files with
  | nil => exact .ret rfl
  | cons i rest ih =>
      unfold listedFiles
      cases PacketCompress.fileName p i with
      | none => exact .fail _
      | some name =>
          refine ensures_sys fun ans t step => ?_
          cases step
          cases (w.files (naming.locate (session.path name))).isSome with
          | false => exact .ret rfl
          | true => exact ih _

/-- Looking for the files changes none. -/
theorem ensures_filesToCompress :
    Ensures (ArchiveStep naming.locate) (filesToCompress session p) w fun _ v => v = w := by
  unfold filesToCompress
  split
  · refine ensures_sys fun ans t step => ?_
    cases step
    exact .ret rfl
  · exact ensures_listedFiles _ _

theorem sends_filesToCompress {events : List ServerEvent} {out : Except Fault (Option (List Str))}
    (run : Exec (filesToCompress session p) events out) : sends events = [] := by
  have quiet : Judged (Proceeds 0 True) (filesToCompress session p) :=
    proceeds_filesToCompress trivial _ _
  exact (quiet events _ run).1

/-- An answer changes no file. -/
theorem answer_evolves {s s' : HandlerState} {answer : PacketType} {v : ArchiveState Place}
    {events : List ServerEvent} (run : Exec (sendSampleResp s answer) events (.ok s'))
    (follows : Evolves (ArchiveStep naming.locate) w events v) :
    sends events = [sampleFrame s.tls answer] ∧ v = w := by
  obtain ⟨rfl, -⟩ := exec_sendSampleResp_iff.mp run
  obtain ⟨t, step, last⟩ := follows.cons_inv
  cases step
  cases last
  exact ⟨rfl, rfl⟩

/-- The end of the handler, for the files that it found. -/
theorem answerCompress_evolves {s s' : HandlerState} {format : Format} {files : List Str}
    {archiveBasePath : Str} {level : Int} {v : ArchiveState Place} {events : List ServerEvent}
    (fresh : w.consumed = [] ∧ w.produced = [])
    (hapart : TarApart naming.locate format files archiveBasePath)
    (run : Exec (answerCompress fuel (some format) files archiveBasePath level s) events (.ok s'))
    (follows : Evolves (ArchiveStep naming.locate) w events v) :
    sends events = [sampleFrame s.tls .respCompress] ∧
      ArchiveHolds naming.locate format files archiveBasePath w v := by
  obtain ⟨success, calls, last, made, answer, rfl⟩ := run.bind_inv
  obtain ⟨x, first, second⟩ := follows.append_inv
  obtain ⟨rfl, holds⟩ := ensures_compressWith format fresh hapart _ calls success x made first
  obtain ⟨sent, rfl⟩ := answer_evolves answer second
  rw [sends_append, sends_compressWith made]
  exact ⟨sent, holds⟩

/-- When every call succeeds, the compress handler reports an error for a listed file that is not
there, and otherwise success: then the archive holds the files. For a tar format libarchive was
given every file, whole and in order, the compressor all that libarchive made, and the archive is
all that the compressor made. -/
theorem archive_holds_files {cb : ConnectionBuffer} {s s' : HandlerState} {archiveName : Str}
    {format : Format} {tree : FileTree Place} {v : ArchiveState Place} {events : List ServerEvent}
    (hformat : PacketCompress.format cb.buffer = some format)
    (harchive : PacketCompress.archiveName cb.buffer = some archiveName)
    (run : Exec (reqCompress fuel cb s) events (.ok s'))
    (follows : Evolves (ArchiveStep naming.locate) (.start tree) events v) :
    ∃ listed before after, events = before ++ after ∧
      Exec (filesToCompress s.session cb.buffer) before (.ok listed) ∧
      (listed = none → sends events = [sampleFrame s.tls .respIoError] ∧ v = .start tree) ∧
      ∀ files, listed = some files →
        TarApart naming.locate format files (s.session.path archiveName) →
        sends events = [sampleFrame s.tls .respCompress] ∧
          ArchiveHolds naming.locate format files (s.session.path archiveName) (.start tree) v := by
  rw [reqCompress_eq harchive, hformat] at run
  obtain ⟨listed, before, after, looked, rest, rfl⟩ := run.bind_inv
  obtain ⟨u, first, second⟩ := follows.append_inv
  obtain rfl := ensures_filesToCompress before listed u looked first
  rw [sends_append, sends_filesToCompress looked, List.nil_append]
  refine ⟨listed, before, after, rfl, looked, ?_, ?_⟩
  · rintro rfl
    exact answer_evolves rest second
  · rintro files rfl hapart
    exact answerCompress_evolves ⟨rfl, rfl⟩ hapart rest second

end Request

/-! ### An archive of one file -/

theorem filesToCompress_compressPacket {format : UInt8} {fileName archiveName : Str}
    (hname : 0 ∉ fileName) (hlen : fileName.length < maxFilenameLen) (session : Session) :
    filesToCompress session (compressPacket format fileName archiveName).buffer =
      doesFileExist (session.path fileName) >>= fun found =>
        if !found then .ret none else .ret (some [session.path fileName]) := by
  have hnames : [0].mapM (PacketCompress.fileName
      (compressPacket format fileName archiveName).buffer) = some [fileName] :=
    listedNames_compressPacket hname hlen
  obtain ⟨name, hfile, hrest⟩ := Option.bind_eq_some_iff.mp (List.mapM_cons.symm.trans hnames)
  cases hrest
  unfold filesToCompress
  rw [if_neg (by rintro ⟨⟩)]
  show listedFiles session _ [] [0] = _
  unfold listedFiles
  rw [hfile]
  rfl

/-- A directory with one file. -/
def oneFile : FileTree Str :=
  fun path => if path = rootSession.path (ascii "x") then some (.file [7]) else none

/-- The calls that put it into an lz4 archive, all of which succeed. -/
def oneFileCalls : List ServerEvent :=
  let file := rootSession.path (ascii "x")
  let tarPath := rootSession.path (ascii "a") ++ ascii ".tar"
  let archivePath := rootSession.path (ascii "a") ++ ascii ".tar.lz4"
  [tarOpened tarPath true,
    ⟨.compression (.fileSize file), Except.ok 1⟩,
    ⟨.compression (.archiveWriteHeader file 1), true⟩,
    ⟨.compression (.fopen file .rb), true⟩,
    ⟨.compression (.fread file), FreadResult.block [7]⟩,
    ⟨.compression (.archiveWriteData [7]), true⟩,
    ⟨.compression (.fread file), FreadResult.eof⟩,
    ⟨.compression (.fclose file), true⟩,
    ⟨.compression .archiveWriteClose, true⟩,
    ⟨.compression (.fopen archivePath .wb), true⟩,
    ⟨.compression (.fopen tarPath .rb), true⟩,
    ⟨.compression (.fread tarPath), FreadResult.block [7, 0]⟩,
    ⟨.compression (.lz4CompressDefault [7, 0]), some [8]⟩,
    ⟨.compression (.fwrite archivePath [8]), true⟩,
    ⟨.compression (.fread tarPath), FreadResult.eof⟩,
    ⟨.compression (.fclose tarPath), true⟩,
    ⟨.compression (.fclose archivePath), true⟩,
    ⟨.remove tarPath, true⟩,
    ⟨.send (sampleFrame Buffer.zero .respCompress), ()⟩]

/-- The calls of a request for it. -/
def oneFileEvents : List ServerEvent :=
  ⟨.pathExists (rootSession.path (ascii "x")), Except.ok true⟩ :: oneFileCalls

theorem exec_oneFileCalls (level : Int) :
    Exec (answerCompress 2 (some .lz4) [rootSession.path (ascii "x")]
        (rootSession.path (ascii "a")) level ⟨rootSession, adminConnected, Buffer.zero⟩)
      oneFileCalls (.ok ⟨rootSession, adminConnected,
        Buffer.zero.setHeader .respCompress sizeofSamplePacket⟩) := by
  refine .call _ (.call _ (.call _ (.call _ (.call _ (.call _ (.call _ (.call _ (.call _ (.call _
    (.call _ (.call _ (.call _ (.call _ (.call _ (.call _ (.call _ (.call _ ?_)))))))))))))))))
  exact exec_sendSampleResp_iff.mpr ⟨rfl, rfl⟩

theorem exec_oneFileEvents :
    Exec (reqCompress 2 (compressPacket 4 (ascii "x") (ascii "a"))
        ⟨rootSession, adminConnected, Buffer.zero⟩) oneFileEvents
      (.ok ⟨rootSession, adminConnected,
        Buffer.zero.setHeader .respCompress sizeofSamplePacket⟩) := by
  rw [reqCompress_eq (archiveName_compressPacket (by decide) (by decide)),
    filesToCompress_compressPacket (by decide) (by decide)]
  exact .call _ (exec_oneFileCalls _)

theorem follows_oneFileEvents :
    ∃ v, Evolves (ArchiveStep plainNaming.locate) (.start oneFile) oneFileEvents v := by
  refine ⟨_, .cons (.pathExists _) (.cons (.tarOpened _) (.cons (.size _ [7] rfl)
    (.cons (.header _ _) (.cons (.openedToRead _ [7] rfl) (.cons (.block _ [7] [] nofun rfl)
    (.cons (.data [7] [] _ rfl) (.cons (.atEnd _ rfl) (.cons (.closed _)
    (.cons (.tarClosed [7, 0]) (.cons (.openedToWrite _) (.cons (.openedToRead _ [7, 0] rfl)
    (.cons (.block _ [7, 0] [] nofun rfl) (.cons (.lz4 _ [8]) (.cons (.wrote _ _ [] rfl)
    (.cons (.atEnd _ rfl) (.cons (.closed _) (.cons (.closed _) (.cons (.removed _)
    (.cons (.answered _) (.nil _))))))))))))))))))))⟩

theorem archive_holds_files_example :
    ∃ v, Evolves (ArchiveStep plainNaming.locate) (.start oneFile) oneFileEvents v ∧
      ArchiveHolds plainNaming.locate .lz4 [rootSession.path (ascii "x")]
        (rootSession.path (ascii "a")) (.start oneFile) v := by
  obtain ⟨v, follows⟩ := follows_oneFileEvents
  obtain ⟨listed, before, after, heq, looked, -, holds⟩ := archive_holds_files rfl
    (archiveName_compressPacket (by decide) (by decide)) exec_oneFileEvents follows
  rw [filesToCompress_compressPacket (by decide) (by decide)] at looked
  obtain ⟨found, rest, rfl, returned⟩ := Exec.call_iff.mp looked
  obtain ⟨hfound, -⟩ := List.cons_eq_cons.mp heq
  cases hfound
  obtain ⟨-, hlisted⟩ := Exec.ret_iff.mp returned
  cases hlisted
  exact ⟨v, follows, (holds _ rfl fun _ => by decide).2⟩

end ConcurrentTcp
