import ConcurrentTcp.Server.BackEndCalls
import ConcurrentTcp.Server.WorkingDirectory

/-!
Archives of a user's files.

A compress request pastes its names onto the working directory without any check
of them. `Confined` programs change files, and take contents, below a root only.
Each back end is confined when its files and its archive are, and uses all of
them. `compress_inside_iff` says for which requests that is so.
-/

namespace ConcurrentTcp

open Interaction Transition LexicalPath

/-! ### What a compression touches -/

/-- The paths a call creates, truncates or removes. -/
def SysCall.changed : SysCall → List Str
  | .remove path => [path]
  | .removeAll path => [path]
  | .mkdir path => [path]
  | .openFile path creat => if creat then [path] else []
  | .rename source destination => [source, destination]
  | .copyFile _ destination => [destination]
  | .compression (.archiveWriteOpenFilename path) => [path]
  | .compression (.fopen path .wb) => [path]
  | .compression (.zipOpen path) => [path]
  | _ => []

/-- The path a call reads a file's contents from. -/
def SysCall.contents? : SysCall → Option Str
  | .compression (.fread path) => some path
  | .compression (.zipFileAdd path) => some path
  | _ => none

/-- A block of the file at `path` was read, or the file was added to a zip archive.
What ends in `.`, `..` or a separator is a directory, and has no contents. -/
def TakesContents (path : Str) (e : ServerEvent) : Prop :=
  Named (filename path) ∧
    ((∃ b bs, e = ⟨.compression (.fread path), (.block (b :: bs) : FreadResult)⟩) ∨
      e = ⟨.compression (.zipFileAdd path), true⟩)

theorem TakesContents.contents? {path : Str} {e : ServerEvent} (h : TakesContents path e) :
    e.op.contents? = some path := by
  rcases h with ⟨-, ⟨b, bs, rfl⟩ | rfl⟩
  · rfl
  · rfl

/-- What an event changes or takes lies below `root`. -/
def CompressInside (root : Loc Str) (e : ServerEvent) : Prop :=
  (∀ path ∈ e.op.changed, StrictlyBelow root (resolve path)) ∧
    ∀ path, TakesContents path e → StrictlyBelow root (resolve path)

/-- Every event of the program is inside. -/
abbrev Confined {α : Type} (root : Loc Str) (p : ServerProg α) : Prop :=
  Contract (fun _ => True) (CompressInside root) (onReturn fun _ => True) p

/-- The files an archive is made from lie below the root, as far as they have
contents. -/
def FilesInside (root : Loc Str) (files : List Str) : Prop :=
  ∀ path ∈ files, Named (filename path) → StrictlyBelow root (resolve path)

/-- Every file named by the archive's path and an extension lies below the root. -/
def ArchiveInside (root : Loc Str) (archiveBasePath : Str) : Prop :=
  ∀ suffix, slash ∉ suffix → 3 ≤ suffix.length →
    StrictlyBelow root (resolve (archiveBasePath ++ suffix))

section Confinement

variable {root : Loc Str} {α β : Type} {call : SysCall} {path : Str}

/-- A call that neither changes a file nor takes its contents. -/
theorem inside_quiet (changed : call.changed = []) (contents : call.contents? = none)
    (ans : call.Answer) : CompressInside root ⟨call, ans⟩ := by
  refine ⟨fun path hpath => ?_, fun path takes => ?_⟩
  · rw [changed] at hpath
    cases hpath
  · have hcontents : call.contents? = some path := takes.contents?
    rw [contents] at hcontents
    cases hcontents

/-- A call that creates, truncates or removes one file below the root. -/
theorem inside_change (changed : call.changed = [path]) (contents : call.contents? = none)
    (inside : StrictlyBelow root (resolve path)) (ans : call.Answer) :
    CompressInside root ⟨call, ans⟩ := by
  refine ⟨fun p hp => ?_, fun p takes => ?_⟩
  · rw [changed] at hp
    cases List.mem_singleton.mp hp
    exact inside
  · have hcontents : call.contents? = some p := takes.contents?
    rw [contents] at hcontents
    cases hcontents

/-- A call that takes the contents of one file below the root. -/
theorem inside_take (changed : call.changed = []) (contents : call.contents? = some path)
    (inside : Named (filename path) → StrictlyBelow root (resolve path)) (ans : call.Answer) :
    CompressInside root ⟨call, ans⟩ := by
  refine ⟨fun p hp => ?_, fun p takes => ?_⟩
  · rw [changed] at hp
    cases hp
  · have hcontents : call.contents? = some p := takes.contents?
    rw [contents] at hcontents
    cases hcontents
    exact inside takes.1

/-- An ordinary library call touches no file. -/
theorem CompressionCall.ordinary_quiet {call : CompressionCall} (h : call.ordinary = true) :
    (SysCall.compression call).changed = [] ∧ (SysCall.compression call).contents? = none := by
  cases call with
  | archiveWriteOpenFilename path => cases h
  | zipOpen path => cases h
  | fread path => cases h
  | zipFileAdd path => cases h
  | fopen path mode =>
      cases mode with
      | wb => cases h
      | rb => exact ⟨rfl, rfl⟩
  | _ => exact ⟨rfl, rfl⟩

/-- The calls of a back end are inside when its files and its archive are. -/
theorem BackEndCall.inside {files : List Str} {archiveBasePath : Str}
    (h : BackEndCall files archiveBasePath call) (hfiles : FilesInside root files)
    (harchive : ArchiveInside root archiveBasePath) (ans : call.Answer) :
    CompressInside root ⟨call, ans⟩ := by
  have htar : StrictlyBelow root (resolve (archiveBasePath ++ ascii ".tar")) :=
    harchive _ (by decide) (by decide)
  cases h with
  | openTar => exact inside_change rfl rfl htar ans
  | openArchive hslash hlength => exact inside_change rfl rfl (harchive _ hslash hlength) ans
  | openZip => exact inside_change rfl rfl (harchive _ (by decide) (by decide)) ans
  | read hpath => exact inside_take rfl rfl (hfiles _ hpath) ans
  | readTar => exact inside_take rfl rfl (fun _ => htar) ans
  | add hpath => exact inside_take rfl rfl (hfiles _ hpath) ans
  | removeTar => exact inside_change rfl rfl htar ans
  | ordinary h =>
      obtain ⟨changed, contents⟩ := CompressionCall.ordinary_quiet h
      exact inside_quiet changed contents ans

theorem confined_compressWith {fuel : Nat} {files : List Str} {archiveBasePath : Str} {level : Int}
    (hfiles : FilesInside root files) (harchive : ArchiveInside root archiveBasePath)
    (format : Option Format) :
    Confined root (compressWith fuel format files archiveBasePath level) :=
  (archives_compressWith format).mono (fun _ h => h)
    (fun e _ call => call.inside hfiles harchive e.ans) fun _ h => h

theorem confined_bind {p : ServerProg α} {f : α → ServerProg β}
    (first : Confined root p) (second : ∀ a, Confined root (f a)) : Confined root (p >>= f) :=
  first.seq fun a _ => second a

end Confinement

/-! ### Every back end uses its files and its archive -/

section Uses

variable {α : Type} {files : List Str} {path : Str}

theorem calls_here (call : SysCall) (ans : call.Answer) {next : call.Answer → ServerProg α} :
    Calls (fun _ => True) (sys call >>= next) ⟨call, ans⟩ :=
  .here ans trivial

theorem calls_later (call : SysCall) (ans : call.Answer) {next : call.Answer → ServerProg α}
    {e : ServerEvent} (later : Calls (fun _ => True) (next ans) e) :
    Calls (fun _ => True) (sys call >>= next) e :=
  .later ans trivial later

/-- An empty file is added. -/
theorem exists_run_addTarEntry (fuel : Nat) (path : Str) :
    ∃ events, Exec (addTarEntry (fuel + 1) path) events (.ok ()) := by
  have closed : Exec (do
      let _ ← lib (.fclose path)
      .ret ()) [⟨.compression (.fclose path), true⟩] (.ok ()) := .call _ (.ret ())
  have read : Exec (do
      let copyBlock := fun bytes => do
        let _ ← lib (.archiveWriteData bytes)
        .ret true
      let _ ← whileFread path copyBlock (fuel + 1)
      let _ ← lib (.fclose path)
      .ret ()) (⟨.compression (.fread path), FreadResult.eof⟩ :: _) (.ok ()) := .call _ closed
  exact ⟨⟨.compression (.fileSize path), (.ok 0 : Except FsError Nat)⟩ ::
    ⟨.compression (.archiveWriteHeader path 0), true⟩ ::
    ⟨.compression (.fopen path .rb), true⟩ :: _, .call _ (.call _ (.call _ read))⟩

/-- The contents of a file are taken. -/
theorem calls_addTarEntry (fuel : Nat) (hpath : Named (filename path)) :
    ∃ e, Calls (fun _ => True) (addTarEntry (fuel + 1) path) e ∧ TakesContents path e := by
  refine ⟨⟨.compression (.fread path), FreadResult.block [0]⟩, ?_, hpath, .inl ⟨0, [], rfl⟩⟩
  apply calls_later (.compression (.fileSize path)) (.ok 1)
  apply calls_later (.compression (.archiveWriteHeader path 1)) true
  refine calls_later (.compression (.fopen path .rb)) true (Calls.bind_left ?_)
  exact calls_here (.compression (.fread path)) (FreadResult.block [0])

theorem calls_createTarArchive (fuel : Nat) (tarPath : Str) (hmem : path ∈ files)
    (hpath : Named (filename path)) :
    ∃ e, Calls (fun _ => True) (createTarArchive (fuel + 1) files tarPath) e ∧
      TakesContents path e := by
  obtain ⟨e, call, takes⟩ := calls_addTarEntry fuel hpath
  refine ⟨e, ?_, takes⟩
  refine calls_later (.compression (.archiveWriteOpenFilename tarPath)) true (Calls.bind_left ?_)
  refine Calls.foldlM hmem (fun _ other => ?_) fun _ => call
  obtain ⟨events, run⟩ := exists_run_addTarEntry fuel other
  exact ⟨events, (), run, fun _ _ => trivial⟩

theorem calls_addZipEntries (level : Int) (hmem : path ∈ files) (hpath : Named (filename path)) :
    ∃ e, Calls (fun _ => True) (addZipEntries level files) e ∧ TakesContents path e := by
  induction files with
  | nil => cases hmem
  | cons other rest ih =>
      rcases List.mem_cons.mp hmem with rfl | later
      · refine ⟨⟨.compression (.zipFileAdd path), true⟩, ?_, hpath, .inr rfl⟩
        apply calls_later (.compression (.zipSourceFile path)) true
        exact calls_here (.compression (.zipFileAdd path)) true
      · obtain ⟨e, call, takes⟩ := ih later
        refine ⟨e, ?_, takes⟩
        apply calls_later (.compression (.zipSourceFile other)) true
        apply calls_later (.compression (.zipFileAdd other)) true
        exact calls_later (.compression (.zipSetFileCompression level)) true call

/-- Whatever the format, each file that has contents is put into the archive. -/
theorem calls_compressWith (fuel : Nat) (archiveBasePath : Str) (level : Int) (format : Format)
    (hmem : path ∈ files) (hpath : Named (filename path)) :
    ∃ e, Calls (fun _ => True)
        (compressWith (fuel + 1) (some format) files archiveBasePath level) e ∧
      TakesContents path e := by
  by_cases hzip : format = .zip
  · subst hzip
    obtain ⟨e, call, takes⟩ := calls_addZipEntries level hmem hpath
    refine ⟨e, ?_, takes⟩
    exact calls_later (.compression (.zipOpen (archiveBasePath ++ ascii ".zip"))) true
      call.bind_left
  · obtain ⟨e, call, takes⟩ :=
      calls_createTarArchive fuel (archiveBasePath ++ ascii ".tar") hmem hpath
    refine ⟨e, ?_, takes⟩
    cases format with
    | zip => exact absurd rfl hzip
    | _ => exact call.bind_left

/-- Whatever the format, the first file opened is named by the archive. -/
theorem calls_archive (fuel : Nat) (files : List Str) (archiveBasePath : Str) (level : Int)
    (format : Format) :
    ∃ suffix e, slash ∉ suffix ∧ 3 ≤ suffix.length ∧
      Calls (fun _ => True)
        (compressWith fuel (some format) files archiveBasePath level) e ∧
      e.op.changed = [archiveBasePath ++ suffix] := by
  have tar : Calls (fun _ => True)
      (createTarArchive fuel files (archiveBasePath ++ ascii ".tar"))
      ⟨.compression (.archiveWriteOpenFilename (archiveBasePath ++ ascii ".tar")), true⟩ :=
    calls_here (.compression (.archiveWriteOpenFilename _)) true
  cases format with
  | zip =>
      exact ⟨ascii ".zip", _, by decide, by decide, calls_here (.compression (.zipOpen _)) true,
        rfl⟩
  | _ => exact ⟨ascii ".tar", _, by decide, by decide, tar.bind_left, rfl⟩

end Uses

/-! ### The names in a request -/

/-- The file names a request lists; `none` when one has no end. -/
def listedNames (p : Buffer) : Option (List Str) :=
  if PacketCompress.compressAll p then some []
  else (List.range (PacketCompress.fileCount p)).mapM (PacketCompress.fileName p)

/-- What the loop over the listed names collects. -/
theorem listedFiles_returns {session : Session} {p : Buffer} {files : List Str} (is : List Nat) :
    Contract (fun _ => True) (CompressInside (resolve (userRoot session.id)))
      (onReturn fun collected => ∀ all, collected = some all → ∃ names,
        is.mapM (PacketCompress.fileName p) = some names ∧ all = files ++ names.map session.path)
      (listedFiles session p files is) := by
  induction is generalizing files with
  | nil =>
      rintro all ⟨⟩
      exact ⟨[], rfl, by simp⟩
  | cons i rest ih =>
      unfold listedFiles
      cases hname : PacketCompress.fileName p i with
      | none => trivial
      | some name =>
          intro (found : Except FsError Bool) _
          refine ⟨⟨by rintro path ⟨⟩, fun path takes => by cases takes.contents?⟩, ?_⟩
          cases found with
          | error e => trivial
          | ok found =>
              cases found with
              | false => rintro all ⟨⟩
              | true =>
                  refine Contract.mono ih (fun _ h => h) (fun _ _ h => h) fun out hout => ?_
                  cases out with
                  | error e => trivial
                  | ok collected =>
                      intro all hall
                      obtain ⟨names, hnames, rfl⟩ := hout all hall
                      refine ⟨name :: names, ?_, by simp⟩
                      rw [List.mapM_cons, hname, hnames]
                      rfl

/-- All listed names can exist. -/
theorem exists_run_listedFiles {p : Buffer} {names : List Str} {is : List Nat}
    (session : Session) (files : List Str)
    (hnames : is.mapM (PacketCompress.fileName p) = some names) :
    ∃ events, Exec (listedFiles session p files is) events
      (.ok (some (files ++ names.map session.path))) := by
  induction is generalizing files names with
  | nil =>
      cases hnames
      refine ⟨[], ?_⟩
      rw [List.reverse_nil, List.map_nil, List.append_nil]
      exact .ret _
  | cons i rest ih =>
      rw [List.mapM_cons] at hnames
      obtain ⟨name, hname, htail⟩ := Option.bind_eq_some_iff.mp hnames
      obtain ⟨others, hothers, hall⟩ := Option.bind_eq_some_iff.mp htail
      cases hall
      obtain ⟨events, run⟩ := ih (files ++ [session.path name]) hothers
      have collected : Exec (listedFiles session p files (i :: rest))
          (⟨.pathExists (session.path name), (.ok true : Except FsError Bool)⟩ :: events)
          (.ok (some (files ++ (name :: others).map session.path))) := by
        have hall : files ++ (name :: others).map session.path =
            files ++ [session.path name] ++ others.map session.path := by simp
        unfold listedFiles
        rw [hname, hall]
        exact .call _ run
      exact ⟨_, collected⟩

/-- A file a directory iterator yields lies below the user's directory. -/
theorem strictlyBelow_entry {id dir : Str} (root : InUserRoot id dir) (entry : DirEntry) :
    StrictlyBelow (resolve (userRoot id))
      (resolve (dir ++ slashed (entry.names.map (·.name)))) := by
  obtain ⟨names, hnames, rfl⟩ := root
  have hentry : ∀ n ∈ entry.names.map (·.name), Named n := by
    intro n hn
    obtain ⟨e, -, rfl⟩ := List.mem_map.mp hn
    exact e.named
  rw [resolve_slashed hentry, resolve_slashed hnames, List.append_assoc]
  refine ⟨atOrBelow_append _ _, fun heq => ?_⟩
  have hnil := List.append_right_eq_self.mp heq
  exact entry.below (List.map_eq_nil_iff.mp (List.append_eq_nil_iff.mp hnil).2)

/-- The files of a request are listed in it, or found below the working directory. -/
theorem filesToCompress_returns {session : Session} {p : Buffer}
    (root : InUserRoot session.id session.currentDir) :
    Contract (fun _ => True) (CompressInside (resolve (userRoot session.id)))
      (onReturn fun collected => ∀ all, collected = some all → ∃ names,
        listedNames p = some names ∧ ∀ path ∈ all,
          StrictlyBelow (resolve (userRoot session.id)) (resolve path) ∨
            ∃ name ∈ names, path = session.path name)
      (filesToCompress session p) := by
  unfold filesToCompress listedNames
  split
  · intro (entries : Except FsError (List DirEntry)) _
    refine ⟨⟨by rintro path ⟨⟩, fun path takes => by cases takes.contents?⟩, ?_⟩
    cases entries with
    | error e => trivial
    | ok entries =>
        rintro all ⟨⟩
        refine ⟨[], rfl, fun path hpath => ?_⟩
        obtain ⟨entry, -, rfl⟩ := List.mem_map.mp hpath
        exact .inl (strictlyBelow_entry root entry)
  · refine (listedFiles_returns _).mono (fun _ h => h) (fun _ _ h => h) fun out hout => ?_
    cases out with
    | error e => trivial
    | ok collected =>
        intro all hall
        obtain ⟨names, hnames, rfl⟩ := hout all hall
        refine ⟨names, hnames, fun path hpath => .inr ?_⟩
        obtain ⟨name, hname, rfl⟩ := List.mem_map.mp hpath
        exact ⟨name, hname, rfl⟩

theorem exists_run_filesToCompress {p : Buffer} {names : List Str} (session : Session)
    (hnames : listedNames p = some names) :
    ∃ events, Exec (filesToCompress session p) events (.ok (some (names.map session.path))) := by
  unfold listedNames at hnames
  unfold filesToCompress
  split at hnames
  · rename_i hall
    cases hnames
    rw [if_pos hall]
    exact ⟨[⟨.recursiveDirectoryIterator (session.currentDir ++ [slash]),
      (.ok [] : Except FsError (List DirEntry))⟩], .call _ (.ret _)⟩
  · rename_i hall
    rw [if_neg hall]
    obtain ⟨events, run⟩ := exists_run_listedFiles session [] hnames
    exact ⟨events, run⟩

/-! ### Where the names lead -/

/-- The directory of a name is the user's directory or lies below it. -/
def NameInside (session : Session) (name : Str) : Prop :=
  AtOrBelow (resolve (userRoot session.id)) (resolve (parentPath (session.path name)))

instance (session : Session) (name : Str) : Decidable (NameInside session name) := by
  unfold NameInside; infer_instance

theorem slash_mem_path (session : Session) (name : Str) : slash ∈ session.path name :=
  List.mem_append_right _ List.mem_cons_self

/-- A file lies below the root exactly when its directory is at or below it. -/
theorem strictlyBelow_path_iff {session : Session} {name suffix : Str} (hsuffix : slash ∉ suffix)
    (hnamed : Named (filename (session.path name) ++ suffix)) :
    StrictlyBelow (resolve (userRoot session.id)) (resolve (session.path name ++ suffix)) ↔
      NameInside session name := by
  rw [resolve_append (slash_mem_path session name) hsuffix, toMove_named hnamed]
  exact strictlyBelow_enter_iff

/-- With an extension, what follows the last separator is a name. -/
theorem named_extension {path suffix : Str} (hsuffix : slash ∉ suffix)
    (hlen : 3 ≤ suffix.length) :
    Named (filename path ++ suffix) := by
  have hlong : 3 ≤ (filename path ++ suffix).length := by
    rw [List.length_append]
    omega
  refine ⟨?_, ?_, ?_, ?_⟩
  · rintro hnil
    rw [hnil] at hlong
    exact absurd hlong (by decide)
  · intro hmem
    rcases List.mem_append.mp hmem with hfile | hsep
    · exact slash_notMem_filename path hfile
    · exact hsuffix hsep
  · rintro hdot
    rw [hdot] at hlong
    exact absurd hlong (by decide)
  · rintro hdotdot
    rw [hdotdot] at hlong
    exact absurd hlong (by decide)

/-- The archive's name, and every listed name of a file, stays in the user's
directory. -/
def CompressOk (session : Session) (p : Buffer) : Prop :=
  ∀ format archiveName names, PacketCompress.format p = some format →
    PacketCompress.archiveName p = some archiveName → listedNames p = some names →
      NameInside session archiveName ∧
        ∀ name ∈ names, Named (filename (session.path name)) → NameInside session name

section Request

variable {fuel : Nat} {cb : ConnectionBuffer} {s : HandlerState}

theorem confined_sendSampleResp {root : Loc Str} (ty : PacketType) :
    Confined root (sendSampleResp s ty) :=
  fun ans _ => ⟨inside_quiet rfl rfl ans, trivial⟩

theorem confined_reqCompress (root : InUserRoot s.session.id s.session.currentDir)
    (ok : CompressOk s.session cb.buffer) :
    Confined (resolve (userRoot s.session.id)) (reqCompress fuel cb s) := by
  unfold reqCompress
  dsimp only
  cases harchive : PacketCompress.archiveName cb.buffer with
  | none => trivial
  | some archiveName =>
      apply (filesToCompress_returns root).seq
      intro collected hcollected
      cases collected with
      | none => exact confined_sendSampleResp _
      | some files =>
          obtain ⟨names, hnames, hfiles⟩ := hcollected files rfl
          show Confined _ (compressWith fuel (PacketCompress.format cb.buffer) _ _ _ >>= _)
          cases hformat : PacketCompress.format cb.buffer with
          | none => exact confined_sendSampleResp _
          | some format =>
              obtain ⟨archive, listed⟩ := ok format archiveName names hformat harchive hnames
              refine confined_bind (confined_compressWith ?_ ?_ (some format)) fun success =>
                confined_sendSampleResp _
              · intro path hpath named
                rcases hfiles path hpath with below | ⟨name, hname, rfl⟩
                · exact below
                · have inside := listed name hname named
                  rw [← List.append_nil (filename _)] at named
                  have below := (strictlyBelow_path_iff (by simp) named).mpr inside
                  rwa [List.append_nil] at below
              · intro suffix hsuffix hlen
                exact (strictlyBelow_path_iff hsuffix (named_extension hsuffix hlen)).mpr archive

/-- What a back end calls, the handler calls. -/
theorem calls_reqCompress {archiveName : Str} {names : List Str}
    (harchive : PacketCompress.archiveName cb.buffer = some archiveName)
    (hnames : listedNames cb.buffer = some names) {e : ServerEvent}
    (call : Calls (fun _ => True) (compressWith fuel (PacketCompress.format cb.buffer)
      (names.map s.session.path) (s.session.path archiveName)
      (getCompressionLevel (PacketCompress.compressionLevel cb.buffer)
        (PacketCompress.format cb.buffer))) e) :
    Calls (fun _ => True) (reqCompress fuel cb s) e := by
  obtain ⟨events, run⟩ := exists_run_filesToCompress s.session hnames
  unfold reqCompress
  simp only [harchive, orUndefined, Prog.ret_bind]
  exact Calls.bind_right run (fun _ _ => trivial) call.bind_left

theorem reqCompress_inside_iff (root : InUserRoot s.session.id s.session.currentDir) :
    (∀ fuel e, Calls (fun _ => True) (reqCompress fuel cb s) e →
        CompressInside (resolve (userRoot s.session.id)) e) ↔
      CompressOk s.session cb.buffer := by
  constructor
  · intro inside format archiveName names hformat harchive hnames
    constructor
    · obtain ⟨suffix, e, hsuffix, hlen, call, changed⟩ := calls_archive 0 (names.map s.session.path)
        (s.session.path archiveName)
        (getCompressionLevel (PacketCompress.compressionLevel cb.buffer) (some format)) format
      rw [← hformat] at call
      have below := (inside 0 e (calls_reqCompress harchive hnames call)).1 _
        (changed ▸ List.mem_singleton_self _)
      exact (strictlyBelow_path_iff hsuffix (named_extension hsuffix hlen)).mp below
    · intro name hname named
      obtain ⟨e, call, takes⟩ := calls_compressWith 0 (s.session.path archiveName)
        (getCompressionLevel (PacketCompress.compressionLevel cb.buffer) (some format)) format
        (List.mem_map_of_mem hname) named
      rw [← hformat] at call
      have below := (inside 1 e (calls_reqCompress harchive hnames call)).2 _ takes
      rw [← List.append_nil (filename _)] at named
      rw [← List.append_nil (s.session.path name)] at below
      exact (strictlyBelow_path_iff (by simp) named).mp below
  · intro ok fuel e call
    exact (confined_reqCompress root ok).of_calls call

end Request

/-- In every reachable session with a login, a compress request stays below the
user's directory exactly when `CompressOk` says so of its names. -/
theorem compress_inside_iff {users : DatabaseHandler} (huuid : NamedUuids users)
    {w : SessionState} (h : Reachable (sessionSystem users) w) {c : ConnId} {session : Session}
    (hlive : w.live c = some session) (hid : session.id ≠ []) (cb : ConnectionBuffer)
    (receiveBuffer tls : Buffer) :
    (∀ fuel e, Calls (fun _ => True)
        (dispatch users fuel .reqCompress receiveBuffer cb ⟨session, w.g, tls⟩) e →
        CompressInside (resolve (userRoot session.id)) e) ↔
      CompressOk session cb.buffer := by
  obtain ⟨-, root⟩ := rooted_of_reachable huuid h c session hlive hid
  have hdispatch : ∀ fuel, dispatch users fuel .reqCompress receiveBuffer cb ⟨session, w.g, tls⟩ =
      reqCompress fuel cb ⟨session, w.g, tls⟩ := fun fuel => dispatch_authorized hid rfl
  simp only [hdispatch]
  exact reqCompress_inside_iff (s := ⟨session, w.g, tls⟩) root

/-! ### A sibling directory -/

/-- A compress packet with one file name, as the client sends it. -/
def compressPacket (format : UInt8) (fileName archiveName : Str) : ConnectionBuffer where
  connection := 0
  frame := [1, PacketType.reqCompress.toByte] ++ le16 sizeofPacketCompress ++ [format, 2, 0, 1] ++
    strncpy fileName maxFilenameLen ++ List.replicate (127 * maxFilenameLen) 0 ++
    strncpy archiveName maxFilenameLen

section CompressPacket

variable {format : UInt8} {fileName archiveName : Str}

theorem archiveName_compressPacket (hname : 0 ∉ archiveName)
    (hlen : archiveName.length < maxFilenameLen) :
    PacketCompress.archiveName (compressPacket format fileName archiveName).buffer =
      some archiveName := by
  obtain ⟨rest, hrest⟩ := strncpy_of_lt hlen
  have hfront : ([1, PacketType.reqCompress.toByte] ++ le16 sizeofPacketCompress ++
      [format, 2, 0, 1] ++ strncpy fileName maxFilenameLen ++
      List.replicate (127 * maxFilenameLen) 0).length = 8 + maxFilenameLen * maxFiles := by
    simp only [List.length_append, length_strncpy, List.length_replicate, le16, List.length_cons,
      List.length_nil, maxFiles]
    omega
  have hroom : sizeofPacketCompress - (8 + maxFilenameLen * maxFiles) = maxFilenameLen := by decide
  unfold PacketCompress.archiveName PacketCompress.fileName
  rw [hroom, ← hfront]
  unfold ConnectionBuffer.buffer compressPacket
  simp only [hrest, ← List.append_assoc]
  exact Buffer.cString_getD _ hname hlen

theorem listedNames_compressPacket (hname : 0 ∉ fileName)
    (hlen : fileName.length < maxFilenameLen) :
    listedNames (compressPacket format fileName archiveName).buffer = some [fileName] := by
  obtain ⟨rest, hrest⟩ := strncpy_of_lt hlen
  have hlisted : PacketCompress.fileName (compressPacket format fileName archiveName).buffer 0 =
      some fileName := by
    unfold PacketCompress.fileName ConnectionBuffer.buffer compressPacket
    simp only [hrest, List.append_assoc, List.cons_append]
    have hroom : fileName.length < sizeofPacketCompress - 8 := by
      have : maxFilenameLen ≤ sizeofPacketCompress - 8 := by decide
      omega
    exact Buffer.cString_getD ([1, PacketType.reqCompress.toByte] ++
      le16 sizeofPacketCompress ++ [format, 2, 0, 1]) hname hroom
  unfold listedNames
  rw [if_neg (by rintro ⟨⟩)]
  show ([0].mapM _ : Option (List Str)) = _
  rw [List.mapM_cons, hlisted]
  rfl

end CompressPacket

/-- A request to put one file into a zip archive gets to read it. -/
theorem exists_zip_of_one (fileName archiveName : Str) (hfile : 0 ∉ fileName)
    (hfileLen : fileName.length < maxFilenameLen) (harchive : 0 ∉ archiveName)
    (harchiveLen : archiveName.length < maxFilenameLen)
    (named : Named (filename (rootSession.path fileName))) :
    ∃ e, Calls (fun _ => True)
        (dispatch exampleUsers 1 .reqCompress Buffer.zero (compressPacket 5 fileName archiveName)
          ⟨rootSession, adminConnected, Buffer.zero⟩) e ∧
      TakesContents (rootSession.path fileName) e := by
  have hformat : PacketCompress.format (compressPacket 5 fileName archiveName).buffer =
      some .zip := rfl
  obtain ⟨e, call, takes⟩ := calls_compressWith 0 (rootSession.path archiveName)
    (getCompressionLevel (PacketCompress.compressionLevel
      (compressPacket 5 fileName archiveName).buffer) (some .zip)) .zip
    (List.mem_singleton_self (rootSession.path fileName)) named
  rw [← hformat] at call
  refine ⟨e, ?_, takes⟩
  rw [dispatch_authorized (by decide) rfl]
  exact calls_reqCompress (s := ⟨rootSession, adminConnected, Buffer.zero⟩)
    (archiveName_compressPacket harchive harchiveLen)
    (listedNames_compressPacket hfile hfileLen) call

/-- The files of another user are put into a zip archive. -/
theorem compress_of_sibling :
    ∃ e, Calls (fun _ => True)
        (dispatch exampleUsers 1 .reqCompress Buffer.zero
          (compressPacket 5 (ascii "../ab/x") (ascii "a"))
          ⟨rootSession, adminConnected, Buffer.zero⟩) e ∧
      TakesContents (ascii "./tmp/1/../ab/x") e ∧
      ¬ CompressInside (resolve (userRoot rootSession.id)) e := by
  obtain ⟨e, call, takes⟩ := exists_zip_of_one (ascii "../ab/x") (ascii "a")
    (by decide) (by decide) (by decide) (by decide) (by decide)
  exact ⟨e, call, takes, fun inside => absurd (inside.2 _ takes) (by decide)⟩

/-- A file of the user's own is. -/
theorem compress_inside :
    ∃ e, Calls (fun _ => True)
        (dispatch exampleUsers 1 .reqCompress Buffer.zero
          (compressPacket 5 (ascii "x") (ascii "a"))
          ⟨rootSession, adminConnected, Buffer.zero⟩) e ∧
      TakesContents (ascii "./tmp/1/x") e ∧
      CompressInside (resolve (userRoot rootSession.id)) e := by
  obtain ⟨e, call, takes⟩ := exists_zip_of_one (ascii "x") (ascii "a")
    (by decide) (by decide) (by decide) (by decide) (by decide)
  refine ⟨e, call, takes, (compress_inside_iff namedUuids_exampleUsers reachable_rootSession
    (SessionState.set_live_self ..) (by decide) _ _ _).mpr ?_ 1 e call⟩
  intro format archiveName names _ harchive hnames
  rw [archiveName_compressPacket (by decide) (by decide)] at harchive
  rw [listedNames_compressPacket (by decide) (by decide)] at hnames
  cases harchive
  cases hnames
  refine ⟨by decide, fun name hname _ => ?_⟩
  cases List.mem_singleton.mp hname
  decide

end ConcurrentTcp
