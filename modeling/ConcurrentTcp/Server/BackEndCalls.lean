import ConcurrentTcp.Server.ClientController

/-!
The calls of the back ends.

A back end works on its own files through its libraries, and removes the tar file by its path.
`archives_compressWith` lists its calls with their paths: what none of these calls does, no
compression does.
-/

namespace ConcurrentTcp

open Interaction

/-- A call that neither opens a file for writing nor takes the contents of one. -/
def CompressionCall.ordinary : CompressionCall → Bool
  | .archiveWriteOpenFilename _ | .fopen _ .wb | .zipOpen _ | .fread _ | .zipFileAdd _ => false
  | _ => true

/-- The calls for an archive of the files. -/
inductive BackEndCall (files : List Str) (archiveBasePath : Str) : SysCall → Prop where
  | openTar : BackEndCall files archiveBasePath
      (.compression (.archiveWriteOpenFilename (archiveBasePath ++ ascii ".tar")))
  | openArchive {suffix : Str} : slash ∉ suffix → 3 ≤ suffix.length →
      BackEndCall files archiveBasePath (.compression (.fopen (archiveBasePath ++ suffix) .wb))
  | openZip : BackEndCall files archiveBasePath
      (.compression (.zipOpen (archiveBasePath ++ ascii ".zip")))
  | read {path : Str} : path ∈ files →
      BackEndCall files archiveBasePath (.compression (.fread path))
  | readTar : BackEndCall files archiveBasePath
      (.compression (.fread (archiveBasePath ++ ascii ".tar")))
  | add {path : Str} : path ∈ files →
      BackEndCall files archiveBasePath (.compression (.zipFileAdd path))
  | removeTar : BackEndCall files archiveBasePath (.remove (archiveBasePath ++ ascii ".tar"))
  | ordinary {call : CompressionCall} : call.ordinary = true →
      BackEndCall files archiveBasePath (.compression call)

/-- The program makes no other calls. -/
abbrev Archives {α : Type} (files : List Str) (archiveBasePath : Str) (p : ServerProg α) : Prop :=
  Contract (fun _ => True) (fun e => BackEndCall files archiveBasePath e.op)
    (onReturn fun _ => True) p

section BackEnds

variable {α β : Type} {files : List Str} {archiveBasePath : Str} {fuel : Nat} {level : Int}

theorem archives_call {op : SysCall} {next : op.Answer → ServerProg α}
    (h : BackEndCall files archiveBasePath op)
    (later : ∀ ans, Archives files archiveBasePath (next ans)) :
    Archives files archiveBasePath (sys op >>= next) :=
  fun ans _ => ⟨h, later ans⟩

theorem archives_ordinary {call : CompressionCall} {next : call.Answer → ServerProg α}
    (h : call.ordinary = true) (later : ∀ ans, Archives files archiveBasePath (next ans)) :
    Archives files archiveBasePath (lib call >>= next) :=
  archives_call (.ordinary h) later

theorem archives_bind {p : ServerProg α} {f : α → ServerProg β}
    (first : Archives files archiveBasePath p)
    (second : ∀ a, Archives files archiveBasePath (f a)) :
    Archives files archiveBasePath (p >>= f) :=
  first.seq fun a _ => second a

/-- A call whose failure makes the back end give up. -/
theorem archives_guard {call : CompressionCall} {failed : call.Answer → Bool}
    {giveUp : ServerProg α} {rest : call.Answer → ServerProg α}
    (h : BackEndCall files archiveBasePath (.compression call))
    (gives : Archives files archiveBasePath giveUp)
    (later : ∀ ans, Archives files archiveBasePath (rest ans)) :
    Archives files archiveBasePath
      (lib call >>= fun ans => if failed ans then giveUp else rest ans) := by
  refine archives_call h fun ans => ?_
  split
  · exact gives
  · exact later ans

theorem archives_closeAll (paths : List Str) :
    Archives files archiveBasePath (closeAll paths) := by
  refine Contract.foldlM (I := fun _ => True) trivial fun _ path _ _ => ?_
  exact archives_ordinary rfl fun _ => trivial

theorem archives_giveUp (paths : List Str) (a : α) :
    Archives files archiveBasePath (closeAll paths >>= fun _ => .ret a) :=
  archives_bind (archives_closeAll paths) fun _ => trivial

theorem archives_remove (a : α) : Archives files archiveBasePath
    (sys (.remove (archiveBasePath ++ ascii ".tar")) >>= fun _ => .ret a) :=
  archives_call .removeTar fun _ => trivial

theorem archives_whileFread {path : Str} {body : List UInt8 → ServerProg Bool}
    (h : BackEndCall files archiveBasePath (.compression (.fread path)))
    (hbody : ∀ bytes, Archives files archiveBasePath (body bytes)) :
    Archives files archiveBasePath (whileFread path body fuel) := by
  induction fuel with
  | zero => trivial
  | succ fuel ih =>
      refine archives_call h fun (block : FreadResult) => ?_
      rcases block with (_ | ⟨b, bs⟩) | _ | _
      · trivial
      · refine archives_bind (hbody (b :: bs)) fun goOn => ?_
        cases goOn with
        | true => exact ih
        | false => trivial
      · trivial
      · trivial

theorem archives_addTarEntry {path : Str} (hpath : path ∈ files) :
    Archives files archiveBasePath (addTarEntry fuel path) := by
  refine archives_ordinary rfl fun (size : Except FsError Nat) => ?_
  cases size with
  | error e => trivial
  | ok size =>
      refine archives_ordinary rfl fun _ => archives_guard (.ordinary rfl) trivial fun _ => ?_
      refine archives_bind (archives_whileFread (.read hpath) fun bytes => ?_) fun _ => ?_
      · exact archives_ordinary rfl fun _ => trivial
      · exact archives_ordinary rfl fun _ => trivial

theorem archives_createTarArchive : Archives files archiveBasePath
    (createTarArchive fuel files (archiveBasePath ++ ascii ".tar")) := by
  refine archives_call .openTar fun _ => archives_bind ?_ fun _ => ?_
  · exact Contract.foldlM trivial fun _ path hpath _ => archives_addTarEntry hpath
  · exact archives_ordinary rfl fun _ => trivial

/-- What the back ends of the tar archives have in common. -/
theorem archives_tarBackEnd {suffix : Str} (hsuffix : slash ∉ suffix ∧ 3 ≤ suffix.length)
    {rest : Bool → ServerProg Bool}
    (later : ∀ opened, Archives files archiveBasePath (rest opened)) :
    Archives files archiveBasePath (do
      let made ← createTarArchive fuel files (archiveBasePath ++ ascii ".tar")
      if !made then .ret false
      else
        let archiveFile : Bool ← lib (.fopen (archiveBasePath ++ suffix) .wb)
        if !archiveFile then .ret false else rest archiveFile) := by
  refine archives_bind archives_createTarArchive fun made => ?_
  split
  · trivial
  · exact archives_guard (.openArchive hsuffix.1 hsuffix.2) trivial later

/-- The loop over the tar file, and what follows it. -/
theorem archives_blocks {body : List UInt8 → ServerProg Bool} (paths : List Str)
    (hbody : ∀ bytes, Archives files archiveBasePath (body bytes)) :
    Archives files archiveBasePath (do
      let finished ← whileFread (archiveBasePath ++ ascii ".tar") body fuel
      closeAll paths
      if !finished then .ret false
      else
        let _ ← sys (.remove (archiveBasePath ++ ascii ".tar"))
        .ret true) := by
  refine archives_bind (archives_whileFread .readTar hbody) fun finished => ?_
  refine archives_bind (archives_closeAll paths) fun _ => ?_
  split
  · trivial
  · exact archives_remove true

theorem archives_compressWithZstd :
    Archives files archiveBasePath (compressWithZstd fuel files archiveBasePath level) := by
  refine archives_tarBackEnd (by decide) fun _ => ?_
  refine archives_guard (.ordinary rfl) (archives_giveUp _ _) fun _ => ?_
  refine archives_guard (.ordinary rfl) (archives_giveUp _ _) fun _ => ?_
  refine archives_blocks _ fun bytes => ?_
  refine archives_ordinary rfl fun (out : Option (List UInt8)) => ?_
  cases out with
  | none => trivial
  | some out => exact archives_ordinary rfl fun _ => trivial

theorem archives_compressWithGzip :
    Archives files archiveBasePath (compressWithGzip fuel files archiveBasePath level) := by
  have written (bytes : List UInt8) : Archives files archiveBasePath (lib (.gzwrite bytes)) :=
    archives_ordinary rfl fun _ => trivial
  refine archives_tarBackEnd (by decide) fun _ => ?_
  refine archives_guard (.ordinary rfl) (archives_giveUp _ _) fun _ => ?_
  refine archives_ordinary rfl fun _ => archives_guard (.ordinary rfl) ?_ fun _ => ?_
  · exact archives_ordinary rfl fun _ => trivial
  refine archives_bind (archives_whileFread .readTar written) fun finished => ?_
  refine archives_bind (archives_closeAll _) fun _ => archives_ordinary rfl fun _ => ?_
  split
  · trivial
  · exact archives_remove true

theorem archives_lzmaRun {archivePath : Str} {input : List UInt8} :
    Archives files archiveBasePath (lzmaRun archivePath input fuel) := by
  induction fuel generalizing input with
  | zero => trivial
  | succ fuel ih =>
      refine archives_ordinary rfl fun (step : LzmaStep) => ?_
      split
      · trivial
      refine archives_ordinary rfl fun _ => ?_
      split
      · trivial
      · exact ih

theorem archives_lzmaFinish {archivePath : Str} :
    Archives files archiveBasePath (lzmaFinish archivePath fuel) := by
  induction fuel with
  | zero => trivial
  | succ fuel ih =>
      refine archives_ordinary rfl fun (step : LzmaStep) => archives_ordinary rfl fun _ => ?_
      split
      · exact ih
      · trivial

theorem archives_compressWithXz :
    Archives files archiveBasePath (compressWithXz fuel files archiveBasePath level) := by
  refine archives_tarBackEnd (by decide) fun _ => ?_
  refine archives_guard (.ordinary rfl) (archives_giveUp _ _) fun _ => ?_
  refine archives_guard (.ordinary rfl) (archives_giveUp _ _) fun _ => ?_
  refine archives_bind (archives_whileFread .readTar fun _ => archives_lzmaRun) fun finished => ?_
  split
  · exact archives_giveUp _ _
  refine archives_bind (archives_closeAll _) fun _ => ?_
  refine archives_bind archives_lzmaFinish fun ret => ?_
  exact archives_bind (archives_closeAll _) fun _ => archives_remove _

theorem archives_compressWithLz4 :
    Archives files archiveBasePath (compressWithLz4 fuel files archiveBasePath level) := by
  refine archives_tarBackEnd (by decide) fun _ => ?_
  refine archives_guard (.ordinary rfl) (archives_giveUp _ _) fun _ => ?_
  refine archives_blocks _ fun bytes => ?_
  refine archives_ordinary rfl fun (out : Option (List UInt8)) => ?_
  cases out with
  | none => trivial
  | some out => exact archives_ordinary rfl fun _ => trivial

theorem archives_addZipEntries {rest : List Str} (h : rest ⊆ files) :
    Archives files archiveBasePath (addZipEntries level rest) := by
  induction rest with
  | nil => trivial
  | cons path rest ih =>
      obtain ⟨hpath, hrest⟩ := List.cons_subset.mp h
      refine archives_guard (.ordinary rfl) trivial fun _ => ?_
      refine archives_guard (.add hpath) trivial fun _ => ?_
      exact archives_ordinary rfl fun _ => ih hrest

theorem archives_compressWithZip :
    Archives files archiveBasePath (compressWithZip files archiveBasePath level) := by
  refine archives_guard .openZip trivial fun _ => ?_
  refine archives_bind (archives_addZipEntries (List.Subset.refl files)) fun added => ?_
  exact archives_ordinary rfl fun _ => trivial

theorem archives_compressWith (format : Option Format) :
    Archives files archiveBasePath (compressWith fuel format files archiveBasePath level) := by
  unfold compressWith
  split
  · exact archives_compressWithZstd
  · exact archives_compressWithGzip
  · exact archives_compressWithXz
  · exact archives_compressWithXz
  · exact archives_compressWithLz4
  · exact archives_compressWithZip
  · trivial

end BackEnds

end ConcurrentTcp
