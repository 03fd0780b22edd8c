import ConcurrentTcp.Server.Receive
import ConcurrentTcp.Server.TransferCalls

/-!
How a handler ends.

What a handler does before it answers is judged call by call by `Proceeds`: it sends
nothing; it goes on as long as no call has thrown, and an exception that is not
caught ends it; its loops are only cut when they have used up their fuel. `Serves`
adds the answer: a handler that returns has sent one frame, last.
`dispatch_returns_iff` and `process_packet_returns_iff` put this together, for the dispatch and
so for what a packet can do to the worker that serves it.
-/

namespace ConcurrentTcp

open Interaction

/-! ### Events -/

/-- A call of `std::filesystem` that threw. `rename` is not one of them, since
`move_file` catches its exception. -/
def threw : ServerEvent → Bool
  | ⟨.removeAll _, .error _⟩ => true
  | ⟨.pathExists _, .error _⟩ => true
  | ⟨.isDirectory _, .error _⟩ => true
  | ⟨.weaklyCanonical _, .error _⟩ => true
  | ⟨.copyFile _ _, .error _⟩ => true
  | ⟨.directoryIterator _, .error _⟩ => true
  | ⟨.recursiveDirectoryIterator _, .error _⟩ => true
  | ⟨.compression (.fileSize _), .error _⟩ => true
  | _ => false

/-- The bytes of a send. -/
def sent? : ServerEvent → Option (List UInt8)
  | ⟨.send bytes, _⟩ => some bytes
  | _ => none

/-- What a step sent, in order. -/
def sends (events : List ServerEvent) : List (List UInt8) := events.filterMap sent?

@[simp] theorem sends_append (first second : List ServerEvent) :
    sends (first ++ second) = sends first ++ sends second :=
  List.filterMap_append ..

/-- The calls that the loops of the compression make once a round. -/
def isLoopCall : ServerEvent → Bool
  | ⟨.compression (.fread _), _⟩ => true
  | ⟨.compression (.lzmaCode _ _), _⟩ => true
  | _ => false

def loopCalls (events : List ServerEvent) : Nat := events.countP isLoopCall

/-- A call that neither sends nor throws. -/
def SysCall.plain : SysCall → Bool
  | .send _ | .removeAll _ | .pathExists _ | .isDirectory _ | .weaklyCanonical _ | .copyFile _ _
  | .directoryIterator _ | .recursiveDirectoryIterator _ | .compression (.fileSize _) => false
  | _ => true

theorem plain_event {op : SysCall} (h : op.plain = true) (ans : op.Answer) :
    sent? ⟨op, ans⟩ = none ∧ threw ⟨op, ans⟩ = false := by
  cases op with
  | compression call =>
      cases call with
      | fileSize path => cases h
      | _ => exact ⟨rfl, rfl⟩
  | send bytes => cases h
  | removeAll path => cases h
  | pathExists path => cases h
  | isDirectory path => cases h
  | weaklyCanonical path => cases h
  | copyFile source destination => cases h
  | directoryIterator path => cases h
  | recursiveDirectoryIterator path => cases h
  | _ => exact ⟨rfl, rfl⟩

/-! ### Before the answer -/

/-- What a run that has not answered yet shows. `ub` is whether it may come to
undefined behaviour. -/
def Proceeds (fuel : Nat) (ub : Prop) (events : List ServerEvent) (fault : Option Fault) : Prop :=
  sends events = [] ∧
    match fault with
    | none => ∀ e ∈ events, threw e = false
    | some .filesystemError => ∃ e ∈ events, threw e = true
    | some .outOfFuel => fuel ≤ loopCalls events
    | some .undefinedBehaviour => ub ∧ ∀ e ∈ events, threw e = false
    | some .badFunctionCall => False

theorem compositional_proceeds (fuel : Nat) (ub : Prop) : Compositional (Proceeds fuel ub) where
  nil := ⟨rfl, by simp⟩
  append := by
    rintro first second fault ⟨hquiet, hfirst⟩ ⟨hquiet', hsecond⟩
    refine ⟨by simp [hquiet, hquiet'], ?_⟩
    rcases fault with _ | fault
    · simpa only [List.forall_mem_append] using And.intro hfirst hsecond
    cases fault with
    | filesystemError =>
        obtain ⟨e, hmem, he⟩ := hsecond
        exact ⟨e, List.mem_append_right _ hmem, he⟩
    | badFunctionCall => exact hsecond
    | undefinedBehaviour => exact ⟨hsecond.1, List.forall_mem_append.mpr ⟨hfirst, hsecond.2⟩⟩
    | outOfFuel =>
        have : fuel ≤ loopCalls second := hsecond
        simp only [loopCalls, List.countP_append] at this ⊢
        omega

section Rules

variable {fuel : Nat} {ub : Prop} {α β : Type}

theorem proceeds_ret (a : α) : Judged (Proceeds fuel ub) (.ret a : ServerProg α) :=
  .ret (compositional_proceeds fuel ub) a

theorem proceeds_bind {p : ServerProg α} {f : α → ServerProg β}
    (first : Judged (Proceeds fuel ub) p) (second : ∀ a, Judged (Proceeds fuel ub) (f a)) :
    Judged (Proceeds fuel ub) (p >>= f) :=
  .bind (compositional_proceeds fuel ub) first second

theorem proceeds_event {op : SysCall} (h : op.plain = true) (ans : op.Answer) :
    Proceeds fuel ub [⟨op, ans⟩] none := by
  obtain ⟨hquiet, hthrew⟩ := plain_event h ans
  exact ⟨by simp [sends, hquiet], by simp [hthrew]⟩

theorem proceeds_sys {op : SysCall} {f : op.Answer → ServerProg α} (h : op.plain = true)
    (later : ∀ ans, Judged (Proceeds fuel ub) (f ans)) : Judged (Proceeds fuel ub) (sys op >>= f) :=
  .call (compositional_proceeds fuel ub) (proceeds_event h) later

/-- A throwing call: its exception ends the program. -/
theorem proceeds_throwing {op : SysCall} {f : op.Answer → ServerProg α}
    (later : ∀ ans, sent? ⟨op, ans⟩ = none ∧
      (threw ⟨op, ans⟩ = false ∧ Judged (Proceeds fuel ub) (f ans) ∨
        threw ⟨op, ans⟩ = true ∧ f ans = .fail .filesystemError)) :
    Judged (Proceeds fuel ub) (sys op >>= f) := by
  rw [sys_bind]
  apply Traces.call
  intro ans events out run
  obtain ⟨hquiet, ⟨hthrew, goes⟩ | ⟨hthrew, ends⟩⟩ := later ans
  · have here : Proceeds fuel ub [⟨op, ans⟩] none := ⟨by simp [sends, hquiet], by simp [hthrew]⟩
    exact (compositional_proceeds fuel ub).append [⟨op, ans⟩] events _ here (goes events out run)
  · rw [ends] at run
    obtain ⟨rfl, rfl⟩ := Exec.fail_iff.mp run
    exact ⟨by simp [sends, hquiet], ⟨_, List.mem_singleton.mpr rfl, hthrew⟩⟩

theorem proceeds_undefined (h : ub) :
    Judged (Proceeds fuel ub) (.fail .undefinedBehaviour : ServerProg α) :=
  .fail ⟨rfl, h, by simp⟩

theorem proceeds_orUndefined {a : Option α} (h : a.isSome = true ∨ ub) :
    Judged (Proceeds fuel ub) (orUndefined a) := by
  cases a with
  | none => exact proceeds_undefined (h.resolve_left (by simp))
  | some a => exact proceeds_ret a

/-- `weakly_canonical` throws. -/
theorem proceeds_canonical {path : Str} {f : FsPath → ServerProg α}
    (h : ∀ p, Judged (Proceeds fuel ub) (f p)) :
    Judged (Proceeds fuel ub) (sys (.weaklyCanonical path) >>= fun r => orThrow r >>= f) := by
  apply proceeds_throwing
  rintro (⟨⟩ | p)
  · exact ⟨rfl, .inr ⟨rfl, rfl⟩⟩
  · exact ⟨rfl, .inl ⟨rfl, h p⟩⟩

end Rules

/-! ### Paths and files -/

section Io

variable {fuel : Nat} {ub : Prop}

theorem proceeds_cdParts (pathParts parts : List Str) :
    Judged (Proceeds fuel ub) (cdParts pathParts parts) := by
  induction parts generalizing pathParts with
  | nil => exact proceeds_ret _
  | cons part rest ih =>
      unfold cdParts
      split
      · exact ih _
      split
      · apply proceeds_throwing
        rintro (⟨⟩ | found)
        · exact ⟨rfl, .inr ⟨rfl, rfl⟩⟩
        refine ⟨rfl, .inl ⟨rfl, ?_⟩⟩
        cases found with
        | false => exact proceeds_ret _
        | true =>
            apply proceeds_throwing
            rintro (⟨⟩ | directory)
            · exact ⟨rfl, .inr ⟨rfl, rfl⟩⟩
            refine ⟨rfl, .inl ⟨rfl, ?_⟩⟩
            cases directory with
            | false => exact proceeds_ret _
            | true => exact ih _
      · exact ih _

theorem proceeds_createFileListPacket (currentDir : Str) (p : Buffer) :
    Judged (Proceeds fuel ub) (createFileListPacket currentDir p) := by
  apply proceeds_bind _ fun p => proceeds_ret _
  apply proceeds_sys rfl
  intro names
  cases names with
  | none => exact proceeds_ret _
  | some names => exact proceeds_ret _

theorem proceeds_doesFileExist (path : Str) : Judged (Proceeds fuel ub) (doesFileExist path) := by
  apply proceeds_throwing
  rintro (⟨⟩ | found)
  · exact ⟨rfl, .inr ⟨rfl, rfl⟩⟩
  · exact ⟨rfl, .inl ⟨rfl, proceeds_ret _⟩⟩

theorem proceeds_removeDirectory (path : Str) :
    Judged (Proceeds fuel ub) (removeDirectory path) := by
  apply proceeds_throwing
  rintro (⟨⟩ | removed)
  · exact ⟨rfl, .inr ⟨rfl, rfl⟩⟩
  · exact ⟨rfl, .inl ⟨rfl, proceeds_ret _⟩⟩

theorem proceeds_isPathWithinUserDir (path userDir : Str) :
    Judged (Proceeds fuel ub) (isPathWithinUserDir path userDir) :=
  proceeds_canonical fun _ => proceeds_canonical fun _ => proceeds_ret _

/-- The exception of `rename` ends here. -/
theorem proceeds_moveFile (source destination : Str) :
    Judged (Proceeds fuel ub) (moveFile source destination) := by
  apply proceeds_sys rfl
  rintro (e | done)
  · exact proceeds_ret _
  · exact proceeds_ret _

theorem proceeds_copyFile (source destination : Str) :
    Judged (Proceeds fuel ub) (sys (.copyFile source destination) >>= orThrow) := by
  apply proceeds_throwing
  rintro (⟨⟩ | done)
  · exact ⟨rfl, .inr ⟨rfl, rfl⟩⟩
  · exact ⟨rfl, .inl ⟨rfl, proceeds_ret _⟩⟩

theorem proceeds_cleanEntries (userDir : Str) (entries : List DirEntry) :
    Judged (Proceeds fuel ub) (cleanEntries userDir entries) := by
  induction entries with
  | nil => exact proceeds_ret _
  | cons entry rest ih =>
      unfold cleanEntries
      split
      · apply proceeds_bind (proceeds_removeDirectory _)
        intro removed
        split
        · exact ih
        · exact proceeds_ret _
      · exact ih

theorem proceeds_createServerStatusPacket (p : Buffer) :
    Judged (Proceeds fuel ub) (createServerStatusPacket p) :=
  proceeds_sys rfl fun _ => proceeds_sys rfl fun _ => proceeds_sys rfl fun _ => proceeds_ret _

theorem proceeds_createConnectionsInfoPacket (p : Buffer) :
    Judged (Proceeds fuel ub) (createConnectionsInfoPacket p) :=
  proceeds_sys rfl fun _ => proceeds_ret _

end Io

/-! ### Compression -/

section Compression

variable {fuel : Nat} {ub : Prop} {α : Type}

theorem proceeds_closeAll (paths : List Str) : Judged (Proceeds fuel ub) (closeAll paths) :=
  .foldlM (compositional_proceeds fuel ub)
    (fun _ _ _ => proceeds_sys rfl fun _ => proceeds_ret _) ()

theorem proceeds_remove (path : Str) (a : α) :
    Judged (Proceeds fuel ub) (sys (.remove path) >>= fun _ => .ret a) :=
  proceeds_sys rfl fun _ => proceeds_ret a

theorem proceeds_mono {rounds : Nat} {p : ServerProg α} (h : rounds ≤ fuel)
    (judged : Judged (Proceeds fuel ub) p) : Judged (Proceeds rounds ub) p := by
  intro events out run
  obtain ⟨hquiet, hout⟩ := judged events out run
  refine ⟨hquiet, ?_⟩
  cases out with
  | ok a => exact hout
  | error e =>
      cases e with
      | outOfFuel => exact Nat.le_trans h hout
      | _ => exact hout

/-- One round of a loop. -/
theorem proceeds_round {op : SysCall} {f : op.Answer → ServerProg α} (h : op.plain = true)
    (hloop : ∀ ans, isLoopCall ⟨op, ans⟩ = true)
    (later : ∀ ans, Judged (Proceeds fuel ub) (f ans)) :
    Judged (Proceeds (fuel + 1) ub) (sys op >>= f) := by
  apply Traces.call
  intro ans events out run
  obtain ⟨hquiet, hthrew⟩ := plain_event h ans
  obtain ⟨hrest, hout⟩ := later ans events out run
  refine ⟨?_, ?_⟩
  · rw [← List.singleton_append, sends_append, hrest]
    simp [sends, hquiet]
  cases out with
  | ok a => exact List.forall_mem_cons.mpr ⟨hthrew, hout⟩
  | error e =>
      cases e with
      | filesystemError =>
          obtain ⟨e, hmem, he⟩ := hout
          exact ⟨e, List.mem_cons_of_mem _ hmem, he⟩
      | badFunctionCall => exact hout
      | undefinedBehaviour => exact ⟨hout.1, List.forall_mem_cons.mpr ⟨hthrew, hout.2⟩⟩
      | outOfFuel =>
          have hcount : fuel ≤ loopCalls events := hout
          show fuel + 1 ≤ loopCalls (⟨op, ans⟩ :: events)
          simp only [loopCalls] at hcount ⊢
          rw [List.countP_cons_of_pos (hloop ans)]
          omega

theorem proceeds_noFuel : Judged (Proceeds 0 ub) (.fail .outOfFuel : ServerProg α) :=
  .fail ⟨rfl, Nat.zero_le _⟩

/-- A loop is cut after as many calls as it had rounds. -/
theorem proceeds_whileFread {path : Str} {body : List UInt8 → ServerProg Bool} {rounds : Nat}
    (h : rounds ≤ fuel) (hbody : ∀ bytes, Judged (Proceeds fuel ub) (body bytes)) :
    Judged (Proceeds rounds ub) (whileFread path body rounds) := by
  induction rounds with
  | zero => exact proceeds_noFuel
  | succ rounds ih =>
      have later := ih (by omega)
      apply proceeds_round rfl (fun _ => rfl)
      intro block
      match block with
      | .block (b :: bs) =>
          apply proceeds_bind (proceeds_mono (by omega) (hbody (b :: bs)))
          intro goOn
          split
          · exact later
          · exact proceeds_ret _
      | .block [] => exact proceeds_ret _
      | .eof => exact proceeds_ret _
      | .error => exact proceeds_ret _

theorem proceeds_addTarEntry (h : ub) (path : Str) :
    Judged (Proceeds fuel ub) (addTarEntry fuel path) := by
  apply proceeds_throwing
  rintro (⟨⟩ | size)
  · exact ⟨rfl, .inr ⟨rfl, rfl⟩⟩
  refine ⟨rfl, .inl ⟨rfl, ?_⟩⟩
  apply proceeds_sys rfl
  intro _
  apply proceeds_sys rfl
  intro opened
  cases opened with
  | false => exact proceeds_undefined h
  | true =>
      apply proceeds_bind
      · exact proceeds_whileFread (Nat.le_refl _) fun _ => proceeds_sys rfl fun _ => proceeds_ret _
      · exact fun _ => proceeds_sys rfl fun _ => proceeds_ret _

theorem proceeds_createTarArchive (h : ub) (files : List Str) (tarPath : Str) :
    Judged (Proceeds fuel ub) (createTarArchive fuel files tarPath) := by
  apply proceeds_sys rfl
  intro _
  apply proceeds_bind
  · exact .foldlM (compositional_proceeds fuel ub) (fun _ path _ => proceeds_addTarEntry h path) ()
  · exact fun _ => proceeds_sys rfl fun _ => proceeds_ret _

/-- Close the files and answer. -/
theorem proceeds_closeAll_ret (paths : List Str) (a : α) :
    Judged (Proceeds fuel ub) (closeAll paths >>= fun _ => .ret a) :=
  proceeds_bind (proceeds_closeAll paths) fun _ => proceeds_ret a

/-- A call whose failure makes the back end give up. -/
theorem proceeds_guard {call : CompressionCall} {failed : call.Answer → Bool}
    {giveUp : ServerProg α} {rest : call.Answer → ServerProg α}
    (h : (SysCall.compression call).plain = true) (gives : Judged (Proceeds fuel ub) giveUp)
    (later : ∀ ans, Judged (Proceeds fuel ub) (rest ans)) :
    Judged (Proceeds fuel ub)
      (lib call >>= fun ans => if failed ans then giveUp else rest ans) := by
  apply proceeds_sys h
  intro ans
  split
  · exact gives
  · exact later ans

/-- The loop over the tar file, and what follows it. -/
theorem proceeds_blocks {body : List UInt8 → ServerProg Bool} {tarPath : Str} (paths : List Str)
    (hbody : ∀ bytes, Judged (Proceeds fuel ub) (body bytes)) :
    Judged (Proceeds fuel ub) (do
      let finished ← whileFread tarPath body fuel
      closeAll paths
      if !finished then .ret false
      else
        let _ ← sys (.remove tarPath)
        .ret true) := by
  apply proceeds_bind (proceeds_whileFread (Nat.le_refl _) hbody)
  intro finished
  apply proceeds_bind (proceeds_closeAll paths)
  intro _
  split
  · exact proceeds_ret _
  · exact proceeds_remove _ _

/-- The back end makes an archive of the files first, and what follows comes to no
undefined behaviour. -/
def TarBackEnd (fuel : Nat) (files : List Str) (p : ServerProg Bool) : Prop :=
  ∃ tarPath rest, p = createTarArchive fuel files tarPath >>= rest ∧
    ∀ ub made, Judged (Proceeds fuel ub) (rest made)

theorem TarBackEnd.proceeds {files : List Str} {p : ServerProg Bool}
    (h : TarBackEnd fuel files p) (hub : ub) : Judged (Proceeds fuel ub) p := by
  obtain ⟨tarPath, rest, rfl, judged⟩ := h
  exact proceeds_bind (proceeds_createTarArchive hub files tarPath) (judged ub)

theorem tarBackEnd_of {files : List Str} {tarPath archivePath : Str} {rest : Bool → ServerProg Bool}
    (later : ∀ ub opened, Judged (Proceeds fuel ub) (rest opened)) :
    TarBackEnd fuel files (do
      let made ← createTarArchive fuel files tarPath
      if !made then .ret false
      else
        let archiveFile : Bool ← lib (.fopen archivePath .wb)
        if !archiveFile then .ret false else rest archiveFile) := by
  refine ⟨tarPath, _, rfl, fun ub made => ?_⟩
  split
  · exact proceeds_ret _
  · exact proceeds_guard rfl (proceeds_ret _) (later ub)

theorem tarBackEnd_compressWithZstd (files : List Str) (archiveBasePath : Str) (level : Int) :
    TarBackEnd fuel files (compressWithZstd fuel files archiveBasePath level) := by
  apply tarBackEnd_of
  intro ub _
  apply proceeds_guard rfl (proceeds_closeAll_ret _ _)
  intro _
  apply proceeds_guard rfl (proceeds_closeAll_ret _ _)
  intro _
  apply proceeds_blocks
  intro bytes
  apply proceeds_sys rfl
  rintro (_ | out)
  · exact proceeds_ret _
  · exact proceeds_sys rfl fun _ => proceeds_ret _

theorem tarBackEnd_compressWithGzip (files : List Str) (archiveBasePath : Str) (level : Int) :
    TarBackEnd fuel files (compressWithGzip fuel files archiveBasePath level) := by
  apply tarBackEnd_of
  intro ub _
  apply proceeds_guard rfl (proceeds_closeAll_ret _ _)
  intro _
  apply proceeds_sys rfl
  intro _
  apply proceeds_guard rfl
  · exact proceeds_sys rfl fun _ => proceeds_ret _
  intro _
  apply proceeds_bind
  · apply proceeds_whileFread (Nat.le_refl _)
    exact fun bytes => proceeds_sys rfl fun _ => proceeds_ret _
  intro finished
  apply proceeds_bind (proceeds_closeAll _)
  intro _
  apply proceeds_sys rfl
  intro _
  split
  · exact proceeds_ret _
  · exact proceeds_remove _ _

theorem proceeds_lzmaRun {archivePath : Str} {rounds : Nat} (input : List UInt8) :
    Judged (Proceeds rounds ub) (lzmaRun archivePath input rounds) := by
  induction rounds generalizing input with
  | zero => exact proceeds_noFuel
  | succ rounds ih =>
      apply proceeds_round rfl (fun _ => rfl)
      intro (step : LzmaStep)
      split
      · exact proceeds_ret _
      apply proceeds_sys rfl
      intro _
      split
      · exact proceeds_ret _
      · exact ih _

theorem proceeds_lzmaFinish {archivePath : Str} {rounds : Nat} :
    Judged (Proceeds rounds ub) (lzmaFinish archivePath rounds) := by
  induction rounds with
  | zero => exact proceeds_noFuel
  | succ rounds ih =>
      apply proceeds_round rfl (fun _ => rfl)
      intro (step : LzmaStep)
      apply proceeds_sys rfl
      intro _
      split
      · exact ih
      · exact proceeds_ret _

theorem tarBackEnd_compressWithXz (files : List Str) (archiveBasePath : Str) (level : Int) :
    TarBackEnd fuel files (compressWithXz fuel files archiveBasePath level) := by
  apply tarBackEnd_of
  intro ub _
  apply proceeds_guard rfl (proceeds_closeAll_ret _ _)
  intro _
  apply proceeds_guard rfl (proceeds_closeAll_ret _ _)
  intro _
  apply proceeds_bind (proceeds_whileFread (Nat.le_refl _) proceeds_lzmaRun)
  intro finished
  split
  · exact proceeds_closeAll_ret _ _
  apply proceeds_bind (proceeds_closeAll _)
  intro _
  apply proceeds_bind proceeds_lzmaFinish
  intro ret
  apply proceeds_bind (proceeds_closeAll _)
  exact fun _ => proceeds_remove _ _

theorem tarBackEnd_compressWithLz4 (files : List Str) (archiveBasePath : Str) (level : Int) :
    TarBackEnd fuel files (compressWithLz4 fuel files archiveBasePath level) := by
  apply tarBackEnd_of
  intro ub _
  apply proceeds_guard rfl (proceeds_closeAll_ret _ _)
  intro _
  apply proceeds_blocks
  intro bytes
  apply proceeds_sys rfl
  rintro (_ | out)
  · exact proceeds_ret _
  · exact proceeds_sys rfl fun _ => proceeds_ret _

theorem proceeds_addZipEntries (level : Int) (files : List Str) :
    Judged (Proceeds fuel ub) (addZipEntries level files) := by
  induction files with
  | nil => exact proceeds_ret _
  | cons path rest ih =>
      apply proceeds_guard rfl (proceeds_ret _)
      intro _
      apply proceeds_guard rfl (proceeds_ret _)
      intro _
      exact proceeds_sys rfl fun _ => ih

theorem proceeds_compressWithZip (files : List Str) (archiveBasePath : Str) (level : Int) :
    Judged (Proceeds fuel ub) (compressWithZip files archiveBasePath level) := by
  apply proceeds_guard rfl (proceeds_ret _)
  intro _
  apply proceeds_bind (proceeds_addZipEntries _ _)
  exact fun added => proceeds_sys rfl fun _ => proceeds_ret _

theorem proceeds_compressWith (h : ub) (format : Option Format) (files : List Str)
    (archivePath : Str) (level : Int) :
    Judged (Proceeds fuel ub) (compressWith fuel format files archivePath level) := by
  unfold compressWith
  split
  · exact (tarBackEnd_compressWithZstd _ _ _).proceeds h
  · exact (tarBackEnd_compressWithGzip _ _ _).proceeds h
  · exact (tarBackEnd_compressWithXz _ _ _).proceeds h
  · exact (tarBackEnd_compressWithXz _ _ _).proceeds h
  · exact (tarBackEnd_compressWithLz4 _ _ _).proceeds h
  · exact proceeds_compressWithZip _ _ _
  · exact proceeds_ret _

theorem proceeds_listedFiles (h : ub) (session : Session) (p : Buffer) (files : List Str)
    (is : List Nat) :
    Judged (Proceeds fuel ub) (listedFiles session p files is) := by
  induction is generalizing files with
  | nil => exact proceeds_ret _
  | cons i rest ih =>
      apply proceeds_bind (proceeds_orUndefined (.inr h))
      intro name
      apply proceeds_bind (proceeds_doesFileExist _)
      intro found
      split
      · exact proceeds_ret _
      · exact ih _

theorem proceeds_filesToCompress (h : ub) (session : Session) (p : Buffer) :
    Judged (Proceeds fuel ub) (filesToCompress session p) := by
  unfold filesToCompress
  split
  · apply proceeds_throwing
    rintro (⟨⟩ | entries)
    · exact ⟨rfl, .inr ⟨rfl, rfl⟩⟩
    · exact ⟨rfl, .inl ⟨rfl, proceeds_ret _⟩⟩
  · exact proceeds_listedFiles h _ _ _ _

end Compression

/-! ### The answer -/

/-- One frame, as long as its header says. -/
def OneFrame (frames : List (List UInt8)) : Prop :=
  ∃ frame, frames = [frame] ∧ declaredSize frame = frame.length

/-- One frame that has all of its header. -/
def HeadedFrame (frames : List (List UInt8)) : Prop :=
  ∃ frame, frames = [frame] ∧ declaredSize frame = frame.length ∧ sizeofPacketHeader ≤ frame.length

theorem HeadedFrame.oneFrame {frames : List (List UInt8)} (h : HeadedFrame frames) :
    OneFrame frames := by
  obtain ⟨frame, hframes, hsize, -⟩ := h
  exact ⟨frame, hframes, hsize⟩

/-- A run that returns has thrown nothing, and what it sent is as `F` says. -/
def Serves {α : Type} (fuel : Nat) (ub : Prop) (F : List (List UInt8) → Prop)
    (p : ServerProg α) : Prop :=
  Traces (fun events out => match out with
    | .ok _ => (∀ e ∈ events, threw e = false) ∧ F (sends events)
    | .error e => Proceeds fuel ub events (some e)) p

section Serves

variable {fuel : Nat} {ub : Prop} {F : List (List UInt8) → Prop} {α β : Type}

theorem Serves.mono {G : List (List UInt8) → Prop} {p : ServerProg α} (h : Serves fuel ub F p)
    (imp : ∀ frames, F frames → G frames) : Serves fuel ub G p := by
  intro events out run
  have here := h events out run
  cases out with
  | ok a => exact ⟨here.1, imp _ here.2⟩
  | error e => exact here

/-- First what does not answer, then what answers. -/
theorem serves_bind_of_ends {p : ServerProg α} {f : α → ServerProg β} {Q : α → Prop}
    (first : Judged (Proceeds fuel ub) p) (ends : Ends Q p)
    (second : ∀ a, Q a → Serves fuel ub F (f a)) : Serves fuel ub F (p >>= f) := by
  apply Traces.bind
  intro before out run
  have here := first before out run
  cases out with
  | error e => exact here
  | ok a =>
      intro after out tail
      obtain ⟨hquiet, hthrew⟩ := here
      have later := second a (ends.returns run) after out tail
      cases out with
      | ok b =>
          refine ⟨List.forall_mem_append.mpr ⟨hthrew, later.1⟩, ?_⟩
          rw [sends_append, hquiet]
          exact later.2
      | error e =>
          exact (compositional_proceeds fuel ub).append before after _ ⟨hquiet, hthrew⟩ later

theorem serves_bind {p : ServerProg α} {f : α → ServerProg β} (first : Judged (Proceeds fuel ub) p)
    (second : ∀ a, Serves fuel ub F (f a)) : Serves fuel ub F (p >>= f) :=
  serves_bind_of_ends first ((Contract.any p).mono (fun _ h => h) (fun _ _ h => h) fun _ h => h)
    fun a _ => second a

theorem serves_sys {op : SysCall} {f : op.Answer → ServerProg α} (h : op.plain = true)
    (later : ∀ ans, Serves fuel ub F (f ans)) : Serves fuel ub F (sys op >>= f) :=
  serves_bind (proceeds_sys h fun a => proceeds_ret a) later

theorem serves_orUndefined {a : Option α} {f : α → ServerProg β} (h : a.isSome = true ∨ ub)
    (later : ∀ x, a = some x → Serves fuel ub F (f x)) :
    Serves fuel ub F (orUndefined a >>= f) := by
  cases a with
  | none => exact Traces.fail ⟨rfl, h.resolve_left (by simp), by simp⟩
  | some x => exact later x rfl

theorem proceeds_weaklyCanonical (path : Str) :
    Judged (Proceeds fuel ub) (sys (.weaklyCanonical path) >>= orThrow) := by
  apply proceeds_throwing
  rintro (⟨⟩ | p)
  · exact ⟨rfl, .inr ⟨rfl, rfl⟩⟩
  · exact ⟨rfl, .inl ⟨rfl, proceeds_ret p⟩⟩

theorem serves_canonical {path : Str} {f : FsPath → ServerProg α}
    (h : ∀ p, Serves fuel ub F (f p)) :
    Serves fuel ub F (sys (.weaklyCanonical path) >>= fun r => orThrow r >>= f) :=
  serves_bind (p := sys (.weaklyCanonical path) >>= orThrow) (proceeds_weaklyCanonical path) h

theorem serves_respond {s : HandlerState} {p : Buffer} {length : Nat} (h : F [p.read 0 length]) :
    Serves fuel ub F (s.respond p length) := by
  intro events out run
  obtain ⟨rfl, rfl⟩ := exec_respond_iff.mp run
  exact ⟨by simp [threw], h⟩

/-- The length passed to `send` is the size in the header. -/
theorem headedFrame_read {p : Buffer} {length : Nat} (h : 4 ≤ length)
    (hsize : p.totalSize = length) : HeadedFrame [p.read 0 length] := by
  refine ⟨_, rfl, ?_, ?_⟩
  · rw [declaredSize_read p h, Buffer.length_read, hsize]
  · rwa [Buffer.length_read]

theorem headedFrame_sampleFrame (tls : Buffer) (answer : PacketType) :
    HeadedFrame [sampleFrame tls answer] := by
  apply headedFrame_read (by decide)
  simp [sizeofSamplePacket]

theorem oneFrame_sampleFrame (tls : Buffer) (answer : PacketType) :
    OneFrame [sampleFrame tls answer] :=
  (headedFrame_sampleFrame tls answer).oneFrame

/-- The answer with a chunk. -/
theorem chunkResponse_headedFrame (tls : Buffer) {bytes : List UInt8}
    (h : bytes.length ≤ maxChunkSize) :
    HeadedFrame [(chunkResponse tls (some bytes)).read 0
      (chunkResponse tls (some bytes)).totalSize] := by
  apply headedFrame_read _ rfl
  rw [totalSize_chunkResponse tls h, sizeofPacketHeader]
  omega

/-- The chunk answer, also that of a failed `read`, which is cut to three bytes. -/
theorem chunkResponse_oneFrame (tls : Buffer) {data : Option (List UInt8)}
    (h : ∀ bytes, data = some bytes → bytes.length ≤ maxChunkSize) :
    OneFrame [(chunkResponse tls data).read 0 (chunkResponse tls data).totalSize] := by
  cases data with
  | none =>
      have hsize : (chunkResponse tls none).totalSize = 3 := by
        simp [chunkResponse, sizeofPacketHeader]
      refine ⟨_, rfl, ?_⟩
      rw [hsize]
      simp [declaredSize, chunkResponse, Buffer.setHeader, Buffer.write, Buffer.read, le16,
        List.range_succ, sizeofPacketHeader]
  | some bytes => exact (chunkResponse_headedFrame tls (h bytes rfl)).oneFrame

theorem serves_sendSampleResp (s : HandlerState) (answer : PacketType) :
    Serves fuel ub HeadedFrame (sendSampleResp s answer) :=
  serves_respond (headedFrame_sampleFrame _ _)

end Serves

/-! ### The handlers -/

section Handlers

variable {fuel : Nat} {ub : Prop}

theorem ends_createServerStatusPacket (p : Buffer) :
    Ends (fun p => p.totalSize = sizeofServerStatusPacket) (createServerStatusPacket p) := by
  refine .after fun cpuUsage => .after fun memory => .after fun uptimeSeconds => ?_
  simp [Contract, Buffer.totalSize_write, sizeofServerStatusPacket]

theorem ends_createConnectionsInfoPacket (p : Buffer) :
    Ends (fun p => p.totalSize = sizeofPacketConnectionsInfo) (createConnectionsInfoPacket p) := by
  refine .after fun ((completed, active, pending) : Nat × Nat × Nat) => ?_
  simp [Contract, Buffer.totalSize_write, sizeofPacketConnectionsInfo]

theorem ends_createFileListPacket (currentDir : Str) (p : Buffer) :
    Ends (fun p => p.totalSize = sizeofPacketFileList) (createFileListPacket currentDir p) := by
  refine .after fun p => ?_
  simp [Contract, sizeofPacketFileList]

theorem serves_reqServerStatus (s : HandlerState) :
    Serves fuel ub HeadedFrame (reqServerStatus s) := by
  unfold reqServerStatus
  split
  · exact serves_sendSampleResp _ _
  apply serves_bind_of_ends (proceeds_createServerStatusPacket _) (ends_createServerStatusPacket _)
  exact fun p hp => serves_respond (headedFrame_read (by decide) hp)

theorem serves_reqConnectionsInfo (s : HandlerState) :
    Serves fuel ub HeadedFrame (reqConnectionsInfo s) := by
  unfold reqConnectionsInfo
  split
  · exact serves_sendSampleResp _ _
  apply serves_bind_of_ends (proceeds_createConnectionsInfoPacket _)
    (ends_createConnectionsInfoPacket _)
  exact fun p hp => serves_respond (headedFrame_read (by decide) hp)

theorem serves_reqSetSetting (receiveBuffer : Buffer) (s : HandlerState) :
    Serves fuel ub HeadedFrame (reqSetSetting receiveBuffer s) := by
  unfold reqSetSetting
  split
  · exact serves_sendSampleResp _ _
  · exact serves_sendSampleResp _ _

theorem serves_reqClean (s : HandlerState) : Serves fuel ub HeadedFrame (reqClean s) := by
  unfold reqClean
  split
  · exact serves_sendSampleResp _ _
  apply serves_bind (p := sys (.directoryIterator (ascii "./tmp/")) >>= orThrow)
  · apply proceeds_throwing
    rintro (⟨⟩ | entries)
    · exact ⟨rfl, .inr ⟨rfl, rfl⟩⟩
    · exact ⟨rfl, .inl ⟨rfl, proceeds_ret _⟩⟩
  · exact fun entries => serves_bind (proceeds_cleanEntries _ _) fun _ => serves_sendSampleResp _ _

theorem serves_reqLogout (s : HandlerState) : Serves fuel ub HeadedFrame (reqLogout s) :=
  serves_sendSampleResp _ _

theorem serves_sendLoggedIn (s : HandlerState) : Serves fuel ub HeadedFrame (sendLoggedIn s) := by
  apply serves_respond
  apply headedFrame_read (by decide)
  simp [createLoggedInPacket, Buffer.totalSize_write, sizeofLoggedInPacket]

theorem serves_reqLogin (users : DatabaseHandler) {cb : ConnectionBuffer}
    (hname : (PacketLogin.decode cb.buffer).isSome = true ∨ ub) (s : HandlerState) :
    Serves fuel ub HeadedFrame (reqLogin users cb s) := by
  apply serves_orUndefined hname
  intro inPacket _
  split
  · apply serves_sys rfl
    intro _
    split
    · split
      · exact serves_sendSampleResp _ _
      · exact serves_sendLoggedIn _
    · exact serves_sendLoggedIn _
  · exact serves_sendSampleResp _ _

theorem serves_reqPing (s : HandlerState) : Serves fuel ub HeadedFrame (reqPing s) :=
  serves_sendSampleResp _ _

theorem serves_reqGetCurrentUser (s : HandlerState) :
    Serves fuel ub HeadedFrame (reqGetCurrentUser s) := by
  apply serves_respond
  apply headedFrame_read (by decide)
  simp [createCurrentUserPacket, Buffer.totalSize_write, sizeofPacketCurrentUser]

theorem serves_reqCurrentDirectory (s : HandlerState) :
    Serves fuel ub HeadedFrame (reqCurrentDirectory s) := by
  apply serves_respond
  apply headedFrame_read (by decide)
  simp [createCurrentDirPacket, sizeofPacketCurrentDirectory]

theorem serves_reqChangeWorkingDirectory {cb : ConnectionBuffer}
    (hname : (PacketCurrentDirectory.decodePath cb.buffer).isSome = true ∨ ub) (s : HandlerState) :
    Serves fuel ub HeadedFrame (reqChangeWorkingDirectory cb s) := by
  apply serves_orUndefined hname
  intro path _
  apply serves_bind (proceeds_cdParts _ _)
  intro newDir
  split
  · exact serves_sendSampleResp _ _
  · exact serves_sendSampleResp _ _

theorem serves_reqRemovePath {cb : ConnectionBuffer}
    (hname : (PacketCurrentDirectory.decodePath cb.buffer).isSome = true ∨ ub) (s : HandlerState) :
    Serves fuel ub HeadedFrame (reqRemovePath cb s) := by
  apply serves_orUndefined hname
  intro name _
  split
  · exact serves_sendSampleResp _ _
  apply serves_sys rfl
  intro (file : Bool)
  split
  · exact serves_sendSampleResp _ _
  · exact serves_bind (proceeds_removeDirectory _) fun _ => serves_sendSampleResp _ _

theorem serves_reqMkdir {cb : ConnectionBuffer}
    (hname : (PacketCurrentDirectory.decodePath cb.buffer).isSome = true ∨ ub) (s : HandlerState) :
    Serves fuel ub HeadedFrame (reqMkdir cb s) := by
  apply serves_orUndefined hname
  intro name _
  split
  · exact serves_sendSampleResp _ _
  · exact serves_sys rfl fun _ => serves_sendSampleResp _ _

theorem serves_reqFileList (s : HandlerState) : Serves fuel ub HeadedFrame (reqFileList s) := by
  apply serves_bind_of_ends (proceeds_createFileListPacket _ _) (ends_createFileListPacket _ _)
  exact fun p hp => serves_respond (headedFrame_read (by decide) hp)

theorem serves_reqFileOpen {cb : ConnectionBuffer} {s : HandlerState}
    (hname : (PacketDownloadFile.decodePath cb.buffer).isSome = true ∨ ub)
    (hpath : ∀ name, PacketDownloadFile.decodePath cb.buffer = some name →
      isValidFilename name = true → (sprintfPath s.session name).isSome = true ∨ ub) :
    Serves fuel ub HeadedFrame (reqFileOpen cb s) := by
  apply serves_orUndefined hname
  intro name hdecode
  split
  · exact serves_sendSampleResp _ _
  rename_i hvalid
  apply serves_orUndefined (hpath name hdecode (by simpa using hvalid))
  intro filePath _
  apply serves_sys rfl
  intro (file : Int)
  split
  · exact serves_sendSampleResp _ _
  apply serves_sys rfl
  rintro (_ | fileSize)
  · exact serves_sendSampleResp _ _
  · apply serves_respond
    apply headedFrame_read (by decide)
    simp [createChunkInfoPacket, Buffer.totalSize_write, sizeofPacketDownloadedFileInfo]

theorem serves_reqFileClose (s : HandlerState) : Serves fuel ub HeadedFrame (reqFileClose s) := by
  apply serves_sys rfl
  intro (closed : Int)
  split
  · exact serves_sys rfl fun _ => serves_sendSampleResp _ _
  · exact serves_sendSampleResp _ _

theorem serves_reqFileTransferStart {cb : ConnectionBuffer}
    (hname : (PacketTransferFileStart.decodeFileName cb.buffer).isSome = true ∨ ub)
    (s : HandlerState) :
    Serves fuel ub HeadedFrame (reqFileTransferStart cb s) := by
  apply serves_orUndefined hname
  intro name _
  split
  · exact serves_sendSampleResp _ _
  · exact serves_sys rfl fun _ => serves_sendSampleResp _ _

theorem serves_writeFileData (answer : PacketType) (cb : ConnectionBuffer) (s : HandlerState) :
    Serves fuel ub HeadedFrame (writeFileData answer cb s) :=
  serves_sys rfl fun _ => serves_sendSampleResp _ _

theorem serves_transferPath {operation : Str → Str → ServerProg Bool}
    (h : ∀ source destination, Judged (Proceeds fuel ub) (operation source destination))
    {cb : ConnectionBuffer}
    (hname : (PacketMoveFile.decode cb.buffer).isSome = true ∨ ub) (s : HandlerState) :
    Serves fuel ub HeadedFrame (transferPath operation cb s) := by
  apply serves_orUndefined hname
  intro inPacket _
  apply serves_canonical
  intro userDirPath
  apply serves_canonical
  intro currentDirPath
  apply serves_canonical
  intro source
  apply serves_canonical
  intro destination
  apply serves_bind (proceeds_isPathWithinUserDir _ _)
  intro sourceInside
  split
  · exact serves_sendSampleResp _ _
  apply serves_bind (proceeds_isPathWithinUserDir _ _)
  intro destinationInside
  split
  · exact serves_sendSampleResp _ _
  · exact serves_bind (h _ _) fun _ => serves_sendSampleResp _ _

theorem serves_reqCompress (h : ub) (cb : ConnectionBuffer) (s : HandlerState) :
    Serves fuel ub HeadedFrame (reqCompress fuel cb s) := by
  apply serves_orUndefined (.inr h)
  intro archiveName _
  apply serves_bind (proceeds_filesToCompress h _ _)
  rintro (_ | files)
  · exact serves_sendSampleResp _ _
  · exact serves_bind (proceeds_compressWith h _ _ _ _) fun _ => serves_sendSampleResp _ _

theorem serves_reqGetSettings (s : HandlerState) :
    Serves fuel ub (fun _ => True) (reqGetSettings s) := by
  unfold reqGetSettings
  split
  · exact serves_respond trivial
  · exact serves_respond trivial

theorem serves_reqFileDownloadChunk (cb : ConnectionBuffer) (s : HandlerState) :
    Serves fuel ub (fun _ => True) (reqFileDownloadChunk cb s) := by
  intro events out run
  obtain ⟨t, rfl, calls⟩ := exec_reqFileDownloadChunk_iff.mp run
  cases calls with
  | notThere position closed hposition => exact ⟨by simp [threw], trivial⟩
  | answered data => exact ⟨by simp [threw], trivial⟩

/-- The strings a handler takes from the packet end within it, and the path made of
one fits its array. A compress request is decoded while it is served. -/
def StringsEnd (cb : ConnectionBuffer) (session : Session) : PacketType → Prop
  | .reqLogin => (PacketLogin.decode cb.buffer).isSome = true
  | .reqChangeWorkingDirectory | .reqRemovePath | .reqMkdir =>
      (PacketCurrentDirectory.decodePath cb.buffer).isSome = true
  | .reqFileOpen => ∃ name, PacketDownloadFile.decodePath cb.buffer = some name ∧
      (isValidFilename name = true → (sprintfPath session name).isSome = true)
  | .reqFileTransferStart => (PacketTransferFileStart.decodeFileName cb.buffer).isSome = true
  | .reqMoveFile | .reqCopyFile => (PacketMoveFile.decode cb.buffer).isSome = true
  | _ => True

/-- Requests with exactly one answer, whatever happens. -/
def PacketType.answersOnce : PacketType → Bool
  | .reqCrcVerify | .reqGetSettings | .reqFileDownloadChunk => false
  | _ => true

/-- Every handler serves, and its one frame has all of its header. -/
theorem handlers_serve_headed {users : DatabaseHandler} {receiveBuffer : Buffer}
    {cb : ConnectionBuffer} {ty : PacketType} {handler : HandlerState → ServerProg HandlerState}
    {s : HandlerState} (h : handlers users fuel receiveBuffer cb ty = some handler)
    (strings : StringsEnd cb s.session ty ∨ ub) (compress : ty = .reqCompress → ub) :
    Serves fuel ub (fun frames => ty.answersOnce = true → HeadedFrame frames) (handler s) := by
  have once : ∀ {p : ServerProg HandlerState}, Serves fuel ub HeadedFrame p →
      Serves fuel ub (fun frames => ty.answersOnce = true → HeadedFrame frames) p :=
    fun serves => serves.mono fun _ one _ => one
  cases ty, handler, h using handlers_cases with
  | reqServerStatus => exact once (serves_reqServerStatus s)
  | reqConnectionsInfo => exact once (serves_reqConnectionsInfo s)
  | reqCrcVerify => exact Traces.ret ⟨by simp, fun hty => by cases hty⟩
  | reqLogout => exact once (serves_reqLogout s)
  | reqCurrentDirectory => exact once (serves_reqCurrentDirectory s)
  | reqRemovePath => exact once (serves_reqRemovePath strings s)
  | reqMkdir => exact once (serves_reqMkdir strings s)
  | reqChangeWorkingDirectory => exact once (serves_reqChangeWorkingDirectory strings s)
  | reqFileOpen =>
      apply once
      rcases strings with ⟨name, hname, hpath⟩ | hub
      · apply serves_reqFileOpen (.inl (by simp [hname]))
        intro other hother hvalid
        rw [hname] at hother
        cases hother
        exact .inl (hpath hvalid)
      · exact serves_reqFileOpen (.inr hub) fun _ _ _ => .inr hub
  | reqFileDownloadChunk =>
      exact (serves_reqFileDownloadChunk cb s).mono fun _ _ hty => by cases hty
  | reqFileClose => exact once (serves_reqFileClose s)
  | reqMoveFile => exact once (serves_transferPath proceeds_moveFile strings s)
  | reqCopyFile => exact once (serves_transferPath proceeds_copyFile strings s)
  | reqPing => exact once (serves_reqPing s)
  | reqGetCurrentUser => exact once (serves_reqGetCurrentUser s)
  | reqFileTransferStart => exact once (serves_reqFileTransferStart strings s)
  | reqFileTransferChunk => exact once (serves_writeFileData _ cb s)
  | reqFileTransferEnd => exact once (serves_writeFileData _ cb s)
  | reqGetSettings => exact (serves_reqGetSettings s).mono fun _ _ hty => by cases hty
  | reqSetSetting => exact once (serves_reqSetSetting receiveBuffer s)
  | reqFileList => exact once (serves_reqFileList s)
  | reqLogin => exact once (serves_reqLogin users strings s)
  | reqCompress => exact once (serves_reqCompress (compress rfl) cb s)
  | reqClean => exact once (serves_reqClean s)

/-- Every handler serves. -/
theorem handlers_serve {users : DatabaseHandler} {receiveBuffer : Buffer}
    {cb : ConnectionBuffer} {ty : PacketType} {handler : HandlerState → ServerProg HandlerState}
    {s : HandlerState} (h : handlers users fuel receiveBuffer cb ty = some handler)
    (strings : StringsEnd cb s.session ty ∨ ub) (compress : ty = .reqCompress → ub) :
    Serves fuel ub (fun frames => ty.answersOnce = true → OneFrame frames) (handler s) :=
  (handlers_serve_headed h strings compress).mono fun _ whole hty => (whole hty).oneFrame

end Handlers

end ConcurrentTcp
