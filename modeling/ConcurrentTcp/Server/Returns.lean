import ConcurrentTcp.Server.Outcomes
import ConcurrentTcp.Server.WorkingDirectory

/-!
When `process_packet` returns to its worker.

An exception that leaves a handler ends the process. `Returns` says when none does
and the handler comes to its end: the packet type has a handler, the strings of the
packet end, every listed file of a compress request opens, and no call of
`std::filesystem` throws where nothing catches it. `process_packet_returns_iff`
shows that this is exact for every state, packet and file system in which the loops come to
their end.
-/

namespace ConcurrentTcp

open Interaction Transition

/-! ### The files of an archive -/

/-- The archive is complete. -/
def isTarClose : ServerEvent → Bool
  | ⟨.compression .archiveWriteClose, _⟩ => true
  | _ => false

/-- A file could not be opened for reading. -/
def notOpened : ServerEvent → Bool
  | ⟨.compression (.fopen _ .rb), ok⟩ => !ok
  | _ => false

/-- A listed file could not be opened: the failure comes before the archive is
complete. -/
def entryNotOpened : List ServerEvent → Bool
  | [] => false
  | e :: rest => !isTarClose e && (notOpened e || entryNotOpened rest)

theorem entryNotOpened_append (first second : List ServerEvent) :
    entryNotOpened (first ++ second) =
      (entryNotOpened first || (!first.any isTarClose && entryNotOpened second)) := by
  induction first with
  | nil => simp [entryNotOpened]
  | cons e rest ih =>
      simp only [List.cons_append, entryNotOpened, ih, List.any_cons]
      cases isTarClose e <;> cases notOpened e <;> simp

/-- Before the archive is complete, a file that does not open ends the program. -/
def TarPhase (events : List ServerEvent) (fault : Option Fault) : Prop :=
  events.any isTarClose = false ∧
    match fault with
    | none => entryNotOpened events = false
    | some .undefinedBehaviour => entryNotOpened events = true
    | some _ => True

theorem compositional_tarPhase : Compositional TarPhase where
  nil := ⟨rfl, rfl⟩
  append := by
    rintro first second fault ⟨hopen, hfirst⟩ ⟨hopen', hsecond⟩
    refine ⟨by simp [hopen, hopen'], ?_⟩
    rcases fault with _ | fault
    · have hsecond : entryNotOpened second = false := hsecond
      simp [entryNotOpened_append, hfirst, hsecond]
    cases fault with
    | undefinedBehaviour =>
        have hsecond : entryNotOpened second = true := hsecond
        simp [entryNotOpened_append, hopen, hsecond]
    | _ => trivial

section TarPhase

variable {α β : Type} {fuel : Nat}

theorem tar_ret (a : α) : Judged TarPhase (.ret a : ServerProg α) := .ret compositional_tarPhase a

theorem tar_bind {p : ServerProg α} {f : α → ServerProg β} (first : Judged TarPhase p)
    (second : ∀ a, Judged TarPhase (f a)) : Judged TarPhase (p >>= f) :=
  .bind compositional_tarPhase first second

theorem tar_sys {op : SysCall} {f : op.Answer → ServerProg α}
    (hclose : ∀ ans, isTarClose ⟨op, ans⟩ = false) (hopen : ∀ ans, notOpened ⟨op, ans⟩ = false)
    (later : ∀ ans, Judged TarPhase (f ans)) : Judged TarPhase (sys op >>= f) :=
  .call compositional_tarPhase
    (fun ans => ⟨by simp [hclose], by simp [entryNotOpened, hopen]⟩) later

theorem tar_whileFread {path : Str} {body : List UInt8 → ServerProg Bool} {rounds : Nat}
    (hbody : ∀ bytes, Judged TarPhase (body bytes)) :
    Judged TarPhase (whileFread path body rounds) := by
  induction rounds with
  | zero => exact .fail ⟨rfl, trivial⟩
  | succ rounds ih =>
      apply tar_sys (fun _ => rfl) (fun _ => rfl)
      intro block
      match block with
      | .block (b :: bs) =>
          apply tar_bind (hbody (b :: bs))
          intro goOn
          split
          · exact ih
          · exact tar_ret _
      | .block [] => exact tar_ret _
      | .eof => exact tar_ret _
      | .error => exact tar_ret _

theorem tar_addTarEntry (path : Str) : Judged TarPhase (addTarEntry fuel path) := by
  apply tar_sys (fun _ => rfl) (fun _ => rfl)
  rintro (⟨⟩ | size)
  · exact .fail ⟨rfl, trivial⟩
  apply tar_sys (fun _ => rfl) (fun _ => rfl)
  intro _
  apply traces_sys
  rintro (_ | _)
  · exact Traces.fail ⟨rfl, rfl⟩
  intro events out run
  have opened : TarPhase [⟨.compression (.fopen path .rb), true⟩] none := ⟨rfl, rfl⟩
  apply compositional_tarPhase.append _ events _ opened
  refine tar_bind ?_ (fun _ => ?_) events out run
  · apply tar_whileFread
    intro bytes
    apply tar_sys (fun _ => rfl) (fun _ => rfl)
    exact fun _ => tar_ret _
  · apply tar_sys (fun _ => rfl) (fun _ => rfl)
    exact fun _ => tar_ret _

/-- A program that comes to undefined behaviour exactly when a listed file does not
open. -/
def TarDefined (p : ServerProg α) : Prop :=
  Traces (fun events out => match out with
    | .ok _ => entryNotOpened events = false
    | .error .undefinedBehaviour => entryNotOpened events = true
    | .error _ => True) p

/-- An archive that is made is complete, and all its files were opened. -/
theorem tar_createTarArchive (files : List Str) (tarPath : Str) :
    Traces (fun events out => match out with
      | .ok _ => events.any isTarClose = true ∧ entryNotOpened events = false
      | .error e => TarPhase events (some e)) (createTarArchive fuel files tarPath) := by
  have entries : Judged TarPhase (sys (.compression (.archiveWriteOpenFilename tarPath)) >>=
      fun _ => files.foldlM (fun _ path => addTarEntry fuel path) ()) := by
    apply tar_sys (fun _ => rfl) (fun _ => rfl)
    exact fun _ => .foldlM compositional_tarPhase (fun _ path _ => tar_addTarEntry path) ()
  have parts : createTarArchive fuel files tarPath =
      (sys (.compression (.archiveWriteOpenFilename tarPath)) >>=
        fun _ => files.foldlM (fun _ path => addTarEntry fuel path) ()) >>=
      fun _ => lib .archiveWriteClose >>= fun _ => .ret true := rfl
  rw [parts]
  apply Traces.bind
  intro before out run
  have here := entries before out run
  cases out with
  | error e => exact here
  | ok _ =>
      apply traces_sys
      intro closed
      apply Traces.ret
      have allOpened : entryNotOpened before = false := here.2
      simp [entryNotOpened_append, here.1, allOpened, entryNotOpened, isTarClose]

/-- Once the archive is complete, what follows is free. -/
theorem TarBackEnd.defined {files : List Str} {p : ServerProg Bool}
    (h : TarBackEnd fuel files p) : TarDefined p := by
  obtain ⟨tarPath, rest, rfl, judged⟩ := h
  apply Traces.bind
  intro before out run
  have here := tar_createTarArchive files tarPath before out run
  cases out with
  | error e =>
      cases e with
      | undefinedBehaviour => exact here.2
      | _ => trivial
  | ok made =>
      intro after out tail
      have later := judged False made after out tail
      have complete : entryNotOpened (before ++ after) = false := by
        simp [entryNotOpened_append, here.1, here.2]
      cases out with
      | ok made => exact complete
      | error e =>
          cases e with
          | undefinedBehaviour => exact later.2.1.elim
          | _ => trivial

/-- No file is opened and no archive is made. -/
def NoArchive (events : List ServerEvent) (_fault : Option Fault) : Prop :=
  ∀ e ∈ events, notOpened e = false ∧ isTarClose e = false

theorem compositional_noArchive : Compositional NoArchive where
  nil := by simp [NoArchive]
  append := fun _ _ _ hfirst hsecond => List.forall_mem_append.mpr ⟨hfirst, hsecond⟩

theorem NoArchive.entryNotOpened_eq {events : List ServerEvent} {fault : Option Fault}
    (h : NoArchive events fault) :
    entryNotOpened events = false ∧ events.any isTarClose = false := by
  induction events with
  | nil => exact ⟨rfl, rfl⟩
  | cons e rest ih =>
      obtain ⟨⟨hopen, hclose⟩, hrest⟩ := List.forall_mem_cons.mp h
      obtain ⟨ihopen, ihclose⟩ := ih hrest
      simp [entryNotOpened, hopen, hclose, ihopen, ihclose]

theorem noArchive_ret (a : α) : Judged NoArchive (.ret a : ServerProg α) :=
  .ret compositional_noArchive a

theorem noArchive_sys {op : SysCall} {f : op.Answer → ServerProg α}
    (here : ∀ ans, notOpened ⟨op, ans⟩ = false ∧ isTarClose ⟨op, ans⟩ = false)
    (later : ∀ ans, Judged NoArchive (f ans)) : Judged NoArchive (sys op >>= f) :=
  .call compositional_noArchive (fun ans => by simpa [NoArchive] using here ans) later

theorem noArchive_addZipEntries (level : Int) (files : List Str) :
    Judged NoArchive (addZipEntries level files) := by
  induction files with
  | nil => exact noArchive_ret _
  | cons path rest ih =>
      apply noArchive_sys (fun _ => ⟨rfl, rfl⟩)
      intro (source : Bool)
      split
      · exact noArchive_ret _
      apply noArchive_sys (fun _ => ⟨rfl, rfl⟩)
      intro (added : Bool)
      split
      · exact noArchive_ret _
      apply noArchive_sys (fun _ => ⟨rfl, rfl⟩)
      exact fun _ => ih

theorem noArchive_compressWithZip (files : List Str) (archiveBasePath : Str) (level : Int) :
    Judged NoArchive (compressWithZip files archiveBasePath level) := by
  apply noArchive_sys (fun _ => ⟨rfl, rfl⟩)
  intro (zip : Bool)
  split
  · exact noArchive_ret _
  apply Judged.bind compositional_noArchive (noArchive_addZipEntries level files)
  intro added
  apply noArchive_sys (fun _ => ⟨rfl, rfl⟩)
  exact fun _ => noArchive_ret _

/-- A back end without an archive opens no file. -/
theorem tarDefined_of_noArchive {p : ServerProg α} (h : Judged NoArchive p)
    (proceeds : Judged (Proceeds fuel False) p) : TarDefined p := by
  intro events out run
  obtain ⟨hopen, -⟩ := NoArchive.entryNotOpened_eq (h events out run)
  cases out with
  | ok a => exact hopen
  | error e =>
      cases e with
      | undefinedBehaviour => exact (proceeds events _ run).2.1.elim
      | _ => trivial

theorem tarDefined_compressWith (format : Option Format) (files : List Str) (archivePath : Str)
    (level : Int) : TarDefined (compressWith fuel format files archivePath level) := by
  unfold compressWith
  split
  · exact (tarBackEnd_compressWithZstd _ _ _).defined
  · exact (tarBackEnd_compressWithGzip _ _ _).defined
  · exact (tarBackEnd_compressWithXz _ _ _).defined
  · exact (tarBackEnd_compressWithXz _ _ _).defined
  · exact (tarBackEnd_compressWithLz4 _ _ _).defined
  · have proceeds : Judged (Proceeds fuel False) (compressWithZip files archivePath level) :=
      proceeds_compressWithZip files archivePath level
    exact tarDefined_of_noArchive (noArchive_compressWithZip _ _ _) proceeds
  · exact Traces.ret rfl

end TarPhase

/-! ### The names of a compress request -/

/-- A listed file does not exist. -/
def nameNotFound : ServerEvent → Bool
  | ⟨.pathExists _, .ok found⟩ => !found
  | _ => false

/-- What the listing does until it has all names, or one is not found. -/
def ListingEnds (p : Buffer) (is : List Nat) (events : List ServerEvent) : Prop :=
  (∀ i ∈ is, (PacketCompress.fileName p i).isSome = true) ∨ ∃ e ∈ events, nameNotFound e = true

theorem noArchive_listedFiles (session : Session) (p : Buffer) (files : List Str)
    (is : List Nat) : Judged NoArchive (listedFiles session p files is) := by
  induction is generalizing files with
  | nil => exact noArchive_ret _
  | cons i rest ih =>
      unfold listedFiles
      cases PacketCompress.fileName p i with
      | none => exact .fail (by simp [NoArchive])
      | some name =>
          apply noArchive_sys (fun _ => ⟨rfl, rfl⟩)
          rintro (⟨⟩ | found)
          · exact .fail (by simp [NoArchive])
          cases found with
          | false => exact noArchive_ret _
          | true => exact ih _

/-- The listing comes to undefined behaviour exactly at a name that does not end,
when all names before it are found. -/
theorem listedFiles_defined (session : Session) (p : Buffer) (files : List Str)
    (is : List Nat) :
    Traces (fun events out => match out with
      | .ok _ => ListingEnds p is events
      | .error .undefinedBehaviour => ¬ ListingEnds p is events
      | .error _ => True) (listedFiles session p files is) := by
  induction is generalizing files with
  | nil => exact Traces.ret (.inl (by simp))
  | cons i rest ih =>
      unfold listedFiles
      cases hname : PacketCompress.fileName p i with
      | none =>
          apply Traces.fail
          simp [ListingEnds, hname]
      | some name =>
          apply traces_sys
          rintro (⟨⟩ | found)
          · exact Traces.fail trivial
          cases found with
          | false => exact Traces.ret (.inr ⟨_, List.mem_cons_self, rfl⟩)
          | true =>
              intro events out run
              have h := ih (files ++ [session.path name]) events out run
              cases out with
              | ok _ => simpa [ListingEnds, hname, nameNotFound] using h
              | error e =>
                  cases e with
                  | undefinedBehaviour => simpa [ListingEnds, hname, nameNotFound] using h
                  | _ => trivial

/-! ### A compress request -/

/-- The archive name and the listed names end, as far as they are read, and the
listed files open. -/
def CompressDefined (cb : ConnectionBuffer) (events : List ServerEvent) : Prop :=
  (PacketCompress.archiveName cb.buffer).isSome = true ∧
    (PacketCompress.compressAll cb.buffer = true ∨
      ListingEnds cb.buffer (List.range (PacketCompress.fileCount cb.buffer)) events) ∧
    entryNotOpened events = false

section Compress

variable {fuel : Nat} {cb : ConnectionBuffer} {s : HandlerState}

theorem noArchive_filesToCompress (session : Session) (p : Buffer) :
    Judged NoArchive (filesToCompress session p) := by
  unfold filesToCompress
  split
  · apply noArchive_sys (fun _ => ⟨rfl, rfl⟩)
    rintro (⟨⟩ | entries)
    · exact .fail (by simp [NoArchive])
    · exact noArchive_ret _
  · exact noArchive_listedFiles session p [] _

theorem filesToCompress_defined (session : Session) (p : Buffer) :
    Traces (fun events out => match out with
      | .ok _ => PacketCompress.compressAll p = true ∨
          ListingEnds p (List.range (PacketCompress.fileCount p)) events
      | .error .undefinedBehaviour => ¬ (PacketCompress.compressAll p = true ∨
          ListingEnds p (List.range (PacketCompress.fileCount p)) events)
      | .error _ => True) (filesToCompress session p) := by
  unfold filesToCompress
  split
  · rename_i all
    apply traces_sys
    rintro (⟨⟩ | entries)
    · exact Traces.fail trivial
    · exact Traces.ret (.inl all)
  · rename_i all
    simp only [all, Bool.false_eq_true, false_or]
    exact listedFiles_defined session p [] _

theorem ListingEnds.append {p : Buffer} {is : List Nat} {events : List ServerEvent}
    (h : ListingEnds p is events) (later : List ServerEvent) :
    ListingEnds p is (events ++ later) := by
  rcases h with all | ⟨e, hmem, he⟩
  · exact .inl all
  · exact .inr ⟨e, List.mem_append_left _ hmem, he⟩

/-- A compress request comes to undefined behaviour exactly when it is not defined. -/
theorem reqCompress_defined (cb : ConnectionBuffer) (s : HandlerState) :
    Traces (fun events out => match out with
      | .ok _ => CompressDefined cb events
      | .error .undefinedBehaviour => ¬ CompressDefined cb events
      | .error _ => True) (reqCompress fuel cb s) := by
  unfold reqCompress CompressDefined
  dsimp only
  cases PacketCompress.archiveName cb.buffer with
  | none =>
      apply Traces.fail
      rintro ⟨h, -⟩
      cases h
  | some archiveName =>
      simp only [orUndefined, Prog.ret_bind]
      apply Traces.bind
      intro listing out run
      have names := filesToCompress_defined s.session cb.buffer listing out run
      have quiet :=
        (noArchive_filesToCompress s.session cb.buffer listing out run).entryNotOpened_eq
      cases out with
      | error e =>
          cases e with
          | undefinedBehaviour => exact fun h => names h.2.1
          | _ => trivial
      | ok files =>
          have listed : ∀ later : List ServerEvent, PacketCompress.compressAll cb.buffer = true ∨
              ListingEnds cb.buffer (List.range (PacketCompress.fileCount cb.buffer))
                (listing ++ later) :=
            fun later => names.imp id fun h => h.append later
          cases files with
          | none =>
              intro events out sent
              obtain ⟨rfl, rfl⟩ := exec_sendSampleResp_iff.mp sent
              refine ⟨rfl, listed _, ?_⟩
              simp [entryNotOpened_append, quiet, entryNotOpened, isTarClose, notOpened]
          | some files =>
              apply Traces.bind
              intro archive out run
              have opened := tarDefined_compressWith _ _ _ _ archive out run
              cases out with
              | error e =>
                  cases e with
                  | undefinedBehaviour =>
                      have opened : entryNotOpened archive = true := opened
                      rintro ⟨-, -, h⟩
                      simp [entryNotOpened_append, quiet, opened] at h
                  | _ => trivial
              | ok success =>
                  intro events out sent
                  obtain ⟨rfl, rfl⟩ := exec_sendSampleResp_iff.mp sent
                  have opened : entryNotOpened archive = false := opened
                  refine ⟨rfl, listed _, ?_⟩
                  simp [entryNotOpened_append, quiet, opened, entryNotOpened, isTarClose,
                    notOpened]

end Compress

/-! ### The dispatch -/

/-- Requests have a handler, responses do not. -/
def PacketType.isRequest (ty : PacketType) : Bool := ty.toByte ≤ PacketType.reqClean.toByte

theorem handlers_isSome (users : DatabaseHandler) (fuel : Nat) (receiveBuffer : Buffer)
    (cb : ConnectionBuffer) (ty : PacketType) :
    (handlers users fuel receiveBuffer cb ty).isSome = ty.isRequest := by
  cases ty <;> rfl

/-- The handler of the packet type has no undefined behaviour. -/
def HandlerDefined (cb : ConnectionBuffer) (session : Session) (events : List ServerEvent)
    (ty : PacketType) : Prop :=
  if ty = .reqCompress then CompressDefined cb events else StringsEnd cb session ty

/-- The packet is refused for want of a login, or its type has a handler that is
defined and no call throws. -/
def Returns (cb : ConnectionBuffer) (session : Session) (events : List ServerEvent)
    (ty : PacketType) : Prop :=
  ty.needsNoLogin = false ∧ session.id = [] ∨
    ty.isRequest = true ∧ HandlerDefined cb session events ty ∧ ∀ e ∈ events, threw e = false

section Dispatch

variable {users : DatabaseHandler} {fuel : Nat} {receiveBuffer : Buffer} {cb : ConnectionBuffer}
  {ty : PacketType} {s : HandlerState}

/-- A string that does not end is read past its packet at once. -/
theorem handler_of_not_stringsEnd {handler : HandlerState → ServerProg HandlerState}
    (h : handlers users fuel receiveBuffer cb ty = some handler)
    (hstrings : ¬ StringsEnd cb s.session ty) : handler s = .fail .undefinedBehaviour := by
  cases ty with
  | reqLogin =>
      cases h
      have hnone : PacketLogin.decode cb.buffer = none := by simpa [StringsEnd] using hstrings
      simp [reqLogin, hnone, orUndefined]
  | reqChangeWorkingDirectory =>
      cases h
      have hnone : PacketCurrentDirectory.decodePath cb.buffer = none := by
        simpa [StringsEnd] using hstrings
      simp [reqChangeWorkingDirectory, hnone, orUndefined]
  | reqRemovePath =>
      cases h
      have hnone : PacketCurrentDirectory.decodePath cb.buffer = none := by
        simpa [StringsEnd] using hstrings
      simp [reqRemovePath, hnone, orUndefined]
  | reqMkdir =>
      cases h
      have hnone : PacketCurrentDirectory.decodePath cb.buffer = none := by
        simpa [StringsEnd] using hstrings
      simp [reqMkdir, hnone, orUndefined]
  | reqFileOpen =>
      cases h
      cases hname : PacketDownloadFile.decodePath cb.buffer with
      | none => simp [reqFileOpen, hname, orUndefined]
      | some name =>
          simp only [StringsEnd, hname, Option.some.injEq, exists_eq_left',
            Classical.not_imp] at hstrings
          obtain ⟨hvalid, hpath⟩ := hstrings
          have hpath : sprintfPath s.session name = none := by simpa using hpath
          simp [reqFileOpen, hname, hvalid, hpath, orUndefined]
  | reqFileTransferStart =>
      cases h
      have hnone : PacketTransferFileStart.decodeFileName cb.buffer = none := by
        simpa [StringsEnd] using hstrings
      simp [reqFileTransferStart, hnone, orUndefined]
  | reqMoveFile =>
      cases h
      have hnone : PacketMoveFile.decode cb.buffer = none := by simpa [StringsEnd] using hstrings
      simp [reqMoveFile, transferPath, hnone, orUndefined]
  | reqCopyFile =>
      cases h
      have hnone : PacketMoveFile.decode cb.buffer = none := by simpa [StringsEnd] using hstrings
      simp [reqCopyFile, transferPath, hnone, orUndefined]
  | _ => exact absurd trivial hstrings

/-- Undefined behaviour of a handler, in terms of its packet. -/
theorem handler_undefined {handler : HandlerState → ServerProg HandlerState}
    (h : handlers users fuel receiveBuffer cb ty = some handler) :
    Traces (fun events out => match out with
      | .ok _ => HandlerDefined cb s.session events ty
      | .error .undefinedBehaviour => ¬ HandlerDefined cb s.session events ty
      | .error _ => True) (handler s) := by
  by_cases hcompress : ty = .reqCompress
  · subst hcompress
    cases h
    exact reqCompress_defined cb s
  simp only [HandlerDefined, if_neg hcompress]
  intro events out run
  by_cases hstrings : StringsEnd cb s.session ty
  · have serves : Serves fuel False _ (handler s) :=
      handlers_serve h (.inl hstrings) fun hty => absurd hty hcompress
    have here := serves events out run
    cases out with
    | ok t => exact hstrings
    | error e =>
        cases e with
        | undefinedBehaviour => exact here.2.1.elim
        | _ => trivial
  · rw [handler_of_not_stringsEnd h hstrings] at run
    obtain ⟨rfl, rfl⟩ := Exec.fail_iff.mp run
    exact hstrings

/-- A packet's handling returns exactly when `Returns` says so. -/
theorem dispatch_returns_iff {events : List ServerEvent} {out : Except Fault HandlerState}
    (run : Exec (dispatch users fuel ty receiveBuffer cb s) events out)
    (hfuel : out ≠ .error .outOfFuel) :
    (∃ t, out = .ok t) ↔ Returns cb s.session events ty := by
  have hslot := handlers_isSome users fuel receiveBuffer cb ty
  rcases dispatch_cases run with
    ⟨hgate, hid, refused⟩ | ⟨hopen, hempty, -, rfl⟩ | ⟨handler, hopen, hhandler, run⟩
  · obtain ⟨rfl, rfl⟩ := exec_respond_iff.mp refused
    exact iff_of_true ⟨_, rfl⟩ (.inl ⟨hgate, hid⟩)
  · rw [hempty] at hslot
    apply iff_of_false
    · rintro ⟨t, ⟨⟩⟩
    · rintro (refused | ⟨hrequest, -⟩)
      · exact hopen refused
      · rw [hrequest] at hslot
        cases hslot
  rw [hhandler] at hslot
  have serves := handlers_serve hhandler (.inr trivial) (fun _ => trivial) events out run
  have defined := handler_undefined hhandler events out run
  constructor
  · rintro ⟨t, rfl⟩
    exact .inr ⟨hslot.symm, defined, serves.1⟩
  · rintro (refused | ⟨-, hdefined, hthrew⟩)
    · exact absurd refused hopen
    cases out with
    | ok t => exact ⟨t, rfl⟩
    | error e =>
        cases e with
        | filesystemError =>
            obtain ⟨e, hmem, he⟩ := serves.2
            rw [hthrew e hmem] at he
            cases he
        | badFunctionCall => exact serves.2.elim
        | undefinedBehaviour => exact absurd hdefined defined
        | outOfFuel => exact absurd rfl hfuel

/-- A dispatch is only cut short when its loops have used up the fuel. -/
theorem dispatch_fuel {events : List ServerEvent}
    (run : Exec (dispatch users fuel ty receiveBuffer cb s) events (.error .outOfFuel)) :
    fuel ≤ loopCalls events := by
  rcases dispatch_cases run with ⟨-, -, refused⟩ | ⟨-, -, -, hend⟩ | ⟨handler, -, hhandler, run⟩
  · obtain ⟨-, hend⟩ := exec_respond_iff.mp refused
    cases hend
  · cases hend
  · have serves : Serves fuel True _ (handler s) :=
      handlers_serve hhandler (.inr trivial) fun _ => trivial
    exact (serves events _ run).2

end Dispatch

/-- For every state, packet and file system in which the loops come to their end,
`process_packet` returns to the worker exactly when `Returns` says so. -/
theorem process_packet_returns_iff {users : DatabaseHandler} {fuel : Nat} {receiveBuffer : Buffer}
    {cb : ConnectionBuffer} {s : HandlerState} {events : List ServerEvent}
    {out : Except Fault HandlerState}
    (run : Exec (processPacket users fuel receiveBuffer cb s) events out)
    (hfuel : loopCalls events < fuel) :
    (∃ t, out = .ok t) ↔ Returns cb s.session events (getPacketType receiveBuffer) := by
  apply dispatch_returns_iff run
  rintro rfl
  exact absurd hfuel (Nat.not_lt.mpr (dispatch_fuel run))

/-- A logged-in client sends a packet with the type of a response. -/
theorem response_type_ends_process :
    ∃ w session cb, Reachable (sessionSystem exampleUsers) w ∧ w.live 0 = some session ∧
      cb.frame ∈ (packetFraming.parse cb.frame).1 ∧
      ∀ fuel tls events out,
        Exec (processPacket exampleUsers fuel cb.buffer cb ⟨session, w.g, tls⟩) events out →
        out = .error .badFunctionCall := by
  refine ⟨_, rootSession, ⟨0, [1, 24, 4, 0]⟩, reachable_rootSession,
    SessionState.set_live_self .., ?_, ?_⟩
  · have hcut : packetFraming.size [1, 24, 4, 0] = some 4 := by decide
    exact packetFraming.parse_of_some hcut ▸ List.mem_cons_self
  · intro fuel tls events out run
    have empty : Exec (.fail .badFunctionCall : ServerProg HandlerState) events out := run
    exact (Exec.fail_iff.mp empty).2

/-- A ping is served. -/
theorem process_packet_returns_ping :
    ∃ events t,
      Exec (processPacket exampleUsers 1 pingTask.packet.buffer pingTask.packet
        ⟨.accepted 5, .initial, Buffer.zero⟩) events (.ok t) ∧
      Returns pingTask.packet (.accepted 5) events (getPacketType pingTask.packet.buffer) := by
  have run : Exec (processPacket exampleUsers 1 pingTask.packet.buffer pingTask.packet
      ⟨.accepted 5, .initial, Buffer.zero⟩) _ (.ok _) :=
    exec_respond ⟨.accepted 5, .initial, Buffer.zero⟩ _ _
  exact ⟨_, _, run, (process_packet_returns_iff run (by decide)).mp ⟨_, rfl⟩⟩

end ConcurrentTcp
