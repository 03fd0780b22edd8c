import ConcurrentTcp.Server.CompressInside
import ConcurrentTcp.Server.Responses

/-!
What a compression leaves of the files.

A back end of a tar archive writes the tar file next to the archive, under a name that it
does not look up before, and removes it at its end. `only_archive_iff` says for which runs
all files but the archive are as they were: the name was free and nothing kept the back end
from removing the file, or the file was never made.
-/

namespace ConcurrentTcp

open Interaction

/-! ### Files -/

/-- What a path leads to. -/
inductive FileEntry where
  | file (content : List UInt8)
  | directory
deriving DecidableEq, Repr

/-- Where the paths of a tree of files lead. Different names in one directory are different
places. -/
structure Naming (Place : Type) where
  locate : Str → Place
  apart : ∀ base suffix suffix' : Str, slash ∉ suffix → slash ∉ suffix' → 3 ≤ suffix.length →
    3 ≤ suffix'.length → locate (base ++ suffix) = locate (base ++ suffix') → suffix = suffix'

/-- The files at all places. -/
abbrev FileTree (Place : Type) : Type := Place → Option FileEntry

section Effects

variable {Place : Type} [DecidableEq Place]

def FileTree.set (tree : FileTree Place) (place : Place) (entry : Option FileEntry) :
    FileTree Place :=
  fun other => if other = place then entry else tree other

/-- What a call does to the files. A file that is opened for writing counts as `left`, which
is what it holds when everything is written to it and it is closed. -/
def fileEffect (naming : Naming Place) (left : Place → List UInt8) (tree : FileTree Place) :
    ServerEvent → FileTree Place
  | ⟨.compression (.archiveWriteOpenFilename path), (opened : Bool)⟩ =>
      if opened then tree.set (naming.locate path) (some (.file (left (naming.locate path))))
      else tree
  | ⟨.compression (.fopen path .wb), (opened : Bool)⟩ =>
      if opened then tree.set (naming.locate path) (some (.file (left (naming.locate path))))
      else tree
  | ⟨.remove path, (removed : Bool)⟩ =>
      if removed then tree.set (naming.locate path) none else tree
  | _ => tree

def filesAfter (naming : Naming Place) (left : Place → List UInt8) (tree : FileTree Place)
    (events : List ServerEvent) : FileTree Place :=
  events.foldl (fileEffect naming left) tree

/-- No path but the archive's leads to something else than before. -/
def OnlyArchive (naming : Naming Place) (archivePath : Str) (before after : FileTree Place) :
    Prop :=
  ∀ path, naming.locate path ≠ naming.locate archivePath →
    after (naming.locate path) = before (naming.locate path)

end Effects

/-- What the archives are called. -/
def tarSuffix : Format → Option Str
  | .zstd => some (ascii ".tar.zst")
  | .gzip => some (ascii ".tar.gz")
  | .xz | .lzma => some (ascii ".tar.xz")
  | .lz4 => some (ascii ".tar.lz4")
  | .zip => none

/-- The tar file and the archive are two files. -/
theorem Naming.tar_ne {Place : Type} (naming : Naming Place) {format : Format} {suffix : Str}
    (hsuffix : tarSuffix format = some suffix) (archiveBasePath : Str) :
    naming.locate (archiveBasePath ++ ascii ".tar") ≠
      naming.locate (archiveBasePath ++ suffix) := by
  have hnames : slash ∉ suffix ∧ 3 ≤ suffix.length ∧ ascii ".tar" ≠ suffix := by
    cases format <;> cases hsuffix <;> decide
  obtain ⟨hslash, hlength, hne⟩ := hnames
  exact fun heq => hne (naming.apart _ _ _ (by decide) hslash (by decide) hlength heq)

/-- A failed call that keeps a back end from removing the tar file. The last call of an xz
stream is none of them. -/
def stops : ServerEvent → Bool
  | ⟨.compression (.lzmaCode .finish _), _⟩ => false
  | e => failureReported e

/-- No call fails that keeps the back end from removing the tar file, nor does the removal. -/
def CleansUp (tarPath : Str) (events : List ServerEvent) : Prop :=
  (∀ e ∈ events, stops e = false) ∧ (⟨.remove tarPath, false⟩ : ServerEvent) ∉ events

/-! ### Files that are left alone -/

section Frame

variable {Place : Type} [DecidableEq Place] {naming : Naming Place} {left : Place → List UInt8}
  {tree : FileTree Place} {place : Place}

theorem FileTree.set_self (entry : Option FileEntry) : tree.set place entry place = entry :=
  if_pos rfl

theorem FileTree.set_of_ne {other : Place} (entry : Option FileEntry) (h : other ≠ place) :
    tree.set place entry other = tree other :=
  if_neg h

/-- A call acts on the places it changes. -/
theorem fileEffect_of_changed {e : ServerEvent}
    (h : ∀ path ∈ e.op.changed, place ≠ naming.locate path) :
    fileEffect naming left tree e place = tree place := by
  unfold fileEffect
  split
  · split
    · exact FileTree.set_of_ne _ (h _ (List.mem_singleton_self _))
    · rfl
  · split
    · exact FileTree.set_of_ne _ (h _ (List.mem_singleton_self _))
    · rfl
  · split
    · exact FileTree.set_of_ne _ (h _ (List.mem_singleton_self _))
    · rfl
  · rfl

theorem filesAfter_append (first second : List ServerEvent) :
    filesAfter naming left tree (first ++ second) =
      filesAfter naming left (filesAfter naming left tree first) second :=
  List.foldl_append

theorem filesAfter_of_changed {events : List ServerEvent}
    (h : ∀ e ∈ events, ∀ path ∈ e.op.changed, place ≠ naming.locate path) :
    filesAfter naming left tree events place = tree place := by
  induction events generalizing tree with
  | nil => rfl
  | cons e rest ih =>
      obtain ⟨here, later⟩ := List.forall_mem_cons.mp h
      exact (ih later).trans (fileEffect_of_changed here)

end Frame

/-! ### The end of a back end -/

/-- A call that changes another file than the archive. -/
def strays (archivePath : Str) (e : ServerEvent) : Bool := e.op.changed.any (· ≠ archivePath)

/-- The opening of the tar file. -/
def tarOpened (tarPath : Str) (opened : Bool) : ServerEvent :=
  ⟨.compression (.archiveWriteOpenFilename tarPath), opened⟩

/-- What a back end does once the tar file is open: a failed call stops it, or it removes the
tar file at the end. -/
def Finishes (tarPath archivePath : Str) (events : List ServerEvent) : Prop :=
  (∀ e ∈ events, strays archivePath e = false) ∧ (∃ e ∈ events, stops e = true) ∨
    ∃ mid removed, events = mid ++ [(⟨.remove tarPath, removed⟩ : ServerEvent)] ∧
      ∀ e ∈ mid, strays archivePath e = false ∧ stops e = false

/-- What goes well before it. -/
theorem Finishes.append {tarPath archivePath : Str} {first rest : List ServerEvent}
    (smooth : ∀ e ∈ first, strays archivePath e = false ∧ stops e = false)
    (h : Finishes tarPath archivePath rest) : Finishes tarPath archivePath (first ++ rest) := by
  rcases h with ⟨keeps, e, he, hstops⟩ | ⟨mid, removed, rfl, hmid⟩
  · refine .inl ⟨?_, e, List.mem_append_right _ he, hstops⟩
    exact List.forall_mem_append.mpr ⟨fun e he => (smooth e he).1, keeps⟩
  · refine .inr ⟨first ++ mid, removed, (List.append_assoc ..).symm, ?_⟩
    exact List.forall_mem_append.mpr ⟨smooth, hmid⟩

section Programs

variable {tarPath archivePath : Str} {α : Type} {fuel : Nat}

/-- The program changes no file but the archive. -/
abbrev Only (archivePath : Str) (p : ServerProg α) : Prop :=
  Reports (strays archivePath) (fun _ => True) p

/-- No call of the program changes another file, or fails to stop the back end. -/
abbrev Smooth (archivePath : Str) (p : ServerProg α) : Prop :=
  Reports (fun e => strays archivePath e || stops e) (fun _ => True) p

/-- Every run that returns finishes. -/
def Finishing (tarPath archivePath : Str) (p : ServerProg α) : Prop :=
  Traces (fun events out => ∀ a, out = .ok a → Finishes tarPath archivePath events) p

theorem only_sys {op : SysCall} {f : op.Answer → ServerProg α}
    (here : ∀ ans, strays archivePath ⟨op, ans⟩ = false)
    (later : ∀ ans, Only archivePath (f ans)) : Only archivePath (sys op >>= f) := by
  apply Reports.call _ later
  intro ans hstrays
  rw [here] at hstrays
  cases hstrays

theorem smooth_sys {op : SysCall} {f : op.Answer → ServerProg α}
    (here : ∀ ans, strays archivePath ⟨op, ans⟩ = false ∧ stops ⟨op, ans⟩ = false)
    (later : ∀ ans, Smooth archivePath (f ans)) : Smooth archivePath (sys op >>= f) := by
  apply Reports.call _ later
  intro ans hbad
  rw [(here ans).1, (here ans).2] at hbad
  cases hbad

/-- A call of which a failure never returns. -/
theorem smooth_lib {call : CompressionCall} {f : call.Answer → ServerProg α}
    (here : ∀ ans : call.Answer, (strays archivePath ⟨.compression call, ans⟩ ||
      stops ⟨.compression call, ans⟩) = true → Rejects (fun _ => True) (f ans))
    (later : ∀ ans, Smooth archivePath (f ans)) : Smooth archivePath (lib call >>= f) :=
  Reports.call here later

theorem finishing_seq {p : ServerProg α} {β : Type} {f : α → ServerProg β}
    (first : Smooth archivePath p) (later : ∀ a, Finishing tarPath archivePath (f a)) :
    Finishing tarPath archivePath (p >>= f) := by
  apply Traces.bind
  intro events out run
  cases out with
  | error e => nofun
  | ok a =>
      intro rest end_ tail b hend
      refine Finishes.append (fun e he => ?_) (later a rest end_ tail b hend)
      have hgood := first events _ run a rfl trivial e he
      exact Bool.or_eq_false_iff.mp hgood

/-- The program changes no file but the archive, and answers whether nothing has stopped the
back end. -/
def Stopping (archivePath : Str) (p : ServerProg Bool) : Prop :=
  Traces (fun events out => ∀ goOn, out = .ok goOn →
    (∀ e ∈ events, strays archivePath e = false) ∧
      (goOn = true ↔ ∀ e ∈ events, stops e = false)) p

theorem stopping_ret : Stopping archivePath (.ret true) := by
  apply Traces.ret
  rintro _ ⟨⟩
  simp

theorem stopping_sys {op : SysCall} {f : op.Answer → ServerProg Bool}
    (keeps : ∀ ans, strays archivePath ⟨op, ans⟩ = false)
    (here : ∀ ans, stops ⟨op, ans⟩ = true → f ans = .ret false)
    (later : ∀ ans, stops ⟨op, ans⟩ = false → Stopping archivePath (f ans)) :
    Stopping archivePath (sys op >>= f) := by
  apply Traces.call
  intro ans events out run goOn hout
  have run : Exec (f ans) events out := run
  cases hstops : stops ⟨op, ans⟩ with
  | true =>
      rw [here ans hstops] at run
      obtain ⟨rfl, rfl⟩ := Exec.ret_iff.mp run
      cases hout
      simp [keeps, hstops]
  | false =>
      obtain ⟨hkeeps, hgood⟩ := later ans hstops events out run goOn hout
      rw [hgood]
      simpa [keeps, hstops] using hkeeps

/-- A call that stops nothing. -/
theorem stopping_quiet {op : SysCall} {f : op.Answer → ServerProg Bool}
    (here : ∀ ans, strays archivePath ⟨op, ans⟩ = false ∧ stops ⟨op, ans⟩ = false)
    (later : ∀ ans, Stopping archivePath (f ans)) : Stopping archivePath (sys op >>= f) := by
  apply stopping_sys (fun ans => (here ans).1) _ fun ans _ => later ans
  intro ans hstops
  rw [(here ans).2] at hstops
  cases hstops

theorem stopping_bind {p : ServerProg Bool} {f : Bool → ServerProg Bool}
    (first : Stopping archivePath p) (here : f false = .ret false)
    (later : Stopping archivePath (f true)) : Stopping archivePath (p >>= f) := by
  apply Traces.bind
  intro events out run
  cases out with
  | error e => nofun
  | ok good =>
      obtain ⟨hkeeps, hgood⟩ := first events _ run good rfl
      intro rest end_ tail goOn hend
      cases good with
      | true =>
          obtain ⟨hrest, hlater⟩ := later rest end_ tail goOn hend
          have hnone := hgood.mp rfl
          refine ⟨List.forall_mem_append.mpr ⟨hkeeps, hrest⟩, ?_⟩
          rw [hlater, List.forall_mem_append, and_iff_right hnone]
      | false =>
          rw [here] at tail
          obtain ⟨rfl, rfl⟩ := Exec.ret_iff.mp tail
          cases hend
          rw [List.append_nil]
          exact ⟨hkeeps, hgood⟩

theorem finishing_bind {p : ServerProg Bool} {β : Type} {f : Bool → ServerProg β}
    (first : Stopping archivePath p) (ends : Only archivePath (f false))
    (later : Finishing tarPath archivePath (f true)) :
    Finishing tarPath archivePath (p >>= f) := by
  apply Traces.bind
  intro events out run
  cases out with
  | error e => nofun
  | ok good =>
      obtain ⟨hkeeps, hgood⟩ := first events _ run good rfl
      intro rest end_ tail b hend
      cases good with
      | true =>
          have hnone := hgood.mp rfl
          exact Finishes.append (fun e he => ⟨hkeeps e he, hnone e he⟩)
            (later rest end_ tail b hend)
      | false =>
          have hrest := ends rest end_ tail b hend trivial
          have hstops : ∃ e ∈ events, stops e = true := by
            simpa using hgood
          obtain ⟨e, he, hstop⟩ := hstops
          exact .inl ⟨List.forall_mem_append.mpr ⟨hkeeps, hrest⟩, e,
            List.mem_append_left _ he, hstop⟩

/-- A call whose failure makes the back end give up. -/
theorem finishing_guard {call : CompressionCall} {failed : call.Answer → Bool} {β : Type}
    {giveUp : ServerProg β} {rest : call.Answer → ServerProg β}
    (keeps : ∀ ans, strays archivePath ⟨.compression call, ans⟩ = false)
    (here : ∀ ans, failed ans = stops ⟨.compression call, ans⟩)
    (gives : Only archivePath giveUp) (later : ∀ ans, Finishing tarPath archivePath (rest ans)) :
    Finishing tarPath archivePath
      (lib call >>= fun ans => if failed ans then giveUp else rest ans) := by
  apply Traces.call
  intro (ans : call.Answer) events out run b hout
  have run : Exec (if failed ans then giveUp else rest ans) events out := run
  by_cases hfailed : failed ans = true
  · rw [if_pos hfailed] at run
    have hrest := gives events out run b hout trivial
    refine .inl ⟨List.forall_mem_cons.mpr ⟨keeps ans, hrest⟩, _, List.mem_cons_self, ?_⟩
    rw [← here, hfailed]
  · rw [if_neg hfailed] at run
    have hgood : stops ⟨.compression call, ans⟩ = false := by
      rw [← here]
      exact Bool.eq_false_iff.mpr hfailed
    have smooth : ∀ e ∈ [(⟨.compression call, ans⟩ : ServerEvent)],
        strays archivePath e = false ∧ stops e = false := by
      rintro e (_ | ⟨_, ⟨⟩⟩)
      exact ⟨keeps ans, hgood⟩
    exact Finishes.append smooth (later ans events out run b hout)

/-- The end. -/
theorem finishing_remove {β : Type} (b : β) :
    Finishing tarPath archivePath (sys (.remove tarPath) >>= fun _ => .ret b) := by
  apply Traces.call
  intro removed
  apply Traces.ret
  intro _ _
  exact .inr ⟨[], removed, rfl, by simp⟩

/-! ### Back ends -/

theorem smooth_closeAll (paths : List Str) : Smooth archivePath (closeAll paths) :=
  .foldlM (fun _ _ => smooth_sys (fun _ => ⟨rfl, rfl⟩) fun _ => .ret _) ()

theorem only_closed (paths : List Str) : Only archivePath (closeAll paths) :=
  .foldlM (fun _ _ => only_sys (fun _ => rfl) fun _ => .ret _) ()

theorem only_closeAll (paths : List Str) (b : Bool) :
    Only archivePath (closeAll paths >>= fun _ => .ret b) :=
  .seq (only_closed paths) fun _ => .ret b

theorem smooth_whileFread {path : Str} {body : List UInt8 → ServerProg Bool} {rounds : Nat}
    (hbody : ∀ bytes, Smooth archivePath (body bytes)) :
    Smooth archivePath (whileFread path body rounds) := by
  induction rounds with
  | zero => exact .fail _
  | succ rounds ih =>
      apply smooth_sys (fun _ => ⟨rfl, rfl⟩)
      intro block
      match block with
      | .block (b :: bs) =>
          apply Reports.seq (hbody (b :: bs))
          intro goOn
          split
          · exact ih
          · exact .ret _
      | .block [] => exact .ret _
      | .eof => exact .ret _
      | .error => exact .ret _

/-- The loop over the tar file ends early when a block stops it. -/
theorem stopping_whileFread {path : Str} {body : List UInt8 → ServerProg Bool} {rounds : Nat}
    (hbody : ∀ bytes, Stopping archivePath (body bytes)) :
    Stopping archivePath (whileFread path body rounds) := by
  induction rounds with
  | zero => exact Traces.fail nofun
  | succ rounds ih =>
      apply stopping_quiet (fun _ => ⟨rfl, rfl⟩)
      intro block
      match block with
      | .block (b :: bs) => exact stopping_bind (hbody (b :: bs)) rfl ih
      | .block [] => exact stopping_ret
      | .eof => exact stopping_ret
      | .error => exact stopping_ret

theorem smooth_addTarEntry (path : Str) : Smooth archivePath (addTarEntry fuel path) := by
  apply smooth_sys (fun _ => ⟨rfl, rfl⟩)
  rintro (⟨⟩ | size)
  · exact .fail _
  apply smooth_sys (fun _ => ⟨rfl, rfl⟩)
  intro _
  apply smooth_lib
  · rintro (_ | _) hbad
    · exact .fail _
    · cases hbad
  rintro (_ | _)
  · exact .fail _
  apply Reports.seq
  · apply smooth_whileFread
    exact fun _ => smooth_sys (fun _ => ⟨rfl, rfl⟩) fun _ => .ret _
  · exact fun _ => smooth_sys (fun _ => ⟨rfl, rfl⟩) fun _ => .ret _

/-- A back end of a tar archive: the tar file is opened first. -/
def OpensTar (tarPath archivePath : Str) (p : ServerProg Bool) : Prop :=
  Traces (fun events out => ∀ made, out = .ok made →
    ∃ opened rest, events = tarOpened tarPath opened :: rest ∧
      Finishes tarPath archivePath rest) p

/-- What the back ends have in common. -/
theorem opensTar_tarBackEnd {files : List Str} {rest : Bool → ServerProg Bool}
    (later : ∀ opened, Finishing tarPath archivePath (rest opened)) :
    OpensTar tarPath archivePath (do
      let made ← createTarArchive fuel files tarPath
      if !made then .ret false
      else
        let archiveFile : Bool ← lib (.fopen archivePath .wb)
        if !archiveFile then .ret false else rest archiveFile) := by
  have archive : Finishing tarPath archivePath (lib (.fopen archivePath .wb) >>=
      fun archiveFile : Bool => if !archiveFile then .ret false else rest archiveFile) :=
    finishing_guard (fun _ => by simp [strays, SysCall.changed]) (fun _ => rfl) (.ret _) later
  have entries : Smooth archivePath (files.foldlM (fun _ path => addTarEntry fuel path) ()) :=
    .foldlM (fun _ path => smooth_addTarEntry path) ()
  have closed : Smooth archivePath (lib .archiveWriteClose) :=
    smooth_sys (fun _ => ⟨rfl, rfl⟩) fun _ => .ret _
  apply Traces.call
  intro opened events out run made hout
  refine ⟨opened, events, rfl, ?_⟩
  have run : Exec ((files.foldlM (fun _ path => addTarEntry fuel path) () >>=
      fun _ => lib .archiveWriteClose >>= fun _ => .ret true) >>= _) events out := run
  rw [Prog.bind_assoc] at run
  exact finishing_seq entries (fun _ => finishing_seq closed fun _ => archive) events out run
    made hout

theorem stopping_lzmaRun {rounds : Nat} (input : List UInt8) :
    Stopping archivePath (lzmaRun archivePath input rounds) := by
  induction rounds generalizing input with
  | zero => exact Traces.fail nofun
  | succ rounds ih =>
      apply stopping_sys (fun _ => rfl)
      · intro (step : LzmaStep) hstops
        have stopped : step.ret ≠ .ok := by simpa [stops, failureReported,
          libraryFailureReported] using hstops
        exact if_pos stopped
      intro (step : LzmaStep) hstops
      have goes : ¬ step.ret ≠ .ok := by simpa [stops, failureReported,
          libraryFailureReported] using hstops
      rw [if_neg goes]
      apply stopping_quiet (fun _ => ⟨rfl, rfl⟩)
      intro _
      split
      · exact stopping_ret
      · exact ih _

theorem smooth_lzmaFinish {rounds : Nat} :
    Smooth archivePath (lzmaFinish archivePath rounds) := by
  induction rounds with
  | zero => exact .fail _
  | succ rounds ih =>
      apply smooth_sys (fun _ => ⟨rfl, rfl⟩)
      intro (step : LzmaStep)
      apply smooth_sys (fun _ => ⟨rfl, rfl⟩)
      intro _
      split
      · exact ih
      · exact .ret _

theorem stopping_gzwrite (bytes : List UInt8) :
    Stopping archivePath (lib (.gzwrite bytes)) := by
  apply Traces.call
  intro (written : Bool)
  apply Traces.ret
  rintro _ ⟨⟩
  cases written <;> simp [strays, SysCall.changed, stops, failureReported,
    libraryFailureReported]

/-- The loop over the tar file, and what follows it. -/
theorem finishing_blocks {body : List UInt8 → ServerProg Bool} {rounds : Nat}
    (paths : List Str) (hbody : ∀ bytes, Stopping archivePath (body bytes)) :
    Finishing tarPath archivePath (do
      let finished ← whileFread tarPath body rounds
      closeAll paths
      if !finished then .ret false
      else
        let _ ← sys (.remove tarPath)
        .ret true) := by
  refine finishing_bind (stopping_whileFread hbody) (only_closeAll paths false) ?_
  exact finishing_seq (smooth_closeAll paths) fun _ => finishing_remove true

theorem opensTar_compressWithZstd (files : List Str) (archiveBasePath : Str) (level : Int) :
    OpensTar (archiveBasePath ++ ascii ".tar") (archiveBasePath ++ ascii ".tar.zst")
      (compressWithZstd fuel files archiveBasePath level) := by
  apply opensTar_tarBackEnd
  intro _
  apply finishing_guard (fun _ => rfl) (fun _ => rfl) (only_closeAll _ _)
  intro _
  apply finishing_guard (fun _ => rfl) (fun _ => rfl) (only_closeAll _ _)
  intro _
  refine finishing_blocks _ fun bytes => ?_
  apply stopping_sys (fun _ => rfl)
  · rintro (_ | out) hstops
    · rfl
    · cases hstops
  rintro (_ | out) hstops
  · cases hstops
  · exact stopping_quiet (fun _ => ⟨rfl, rfl⟩) fun _ => stopping_ret

theorem opensTar_compressWithGzip (files : List Str) (archiveBasePath : Str) (level : Int) :
    OpensTar (archiveBasePath ++ ascii ".tar") (archiveBasePath ++ ascii ".tar.gz")
      (compressWithGzip fuel files archiveBasePath level) := by
  apply opensTar_tarBackEnd
  intro _
  apply finishing_guard (fun _ => rfl) (fun _ => rfl) (only_closeAll _ _)
  intro _
  have closed : Smooth (archiveBasePath ++ ascii ".tar.gz") (lib .gzclose) :=
    smooth_sys (fun _ => ⟨rfl, rfl⟩) fun _ => .ret _
  have params : Smooth (archiveBasePath ++ ascii ".tar.gz") (lib (.gzsetparams level)) :=
    smooth_sys (fun _ => ⟨rfl, rfl⟩) fun _ => .ret _
  apply finishing_seq params
  intro _
  apply finishing_guard (fun _ => rfl) (fun _ => rfl)
  · exact only_sys (fun _ => rfl) fun _ => .ret _
  intro _
  apply finishing_bind (stopping_whileFread stopping_gzwrite)
  · apply Reports.seq (only_closed _)
    intro _
    exact only_sys (fun _ => rfl) fun _ => .ret _
  · apply finishing_seq (smooth_closeAll _)
    intro _
    exact finishing_seq closed fun _ => finishing_remove _

theorem opensTar_compressWithXz (files : List Str) (archiveBasePath : Str) (level : Int) :
    OpensTar (archiveBasePath ++ ascii ".tar") (archiveBasePath ++ ascii ".tar.xz")
      (compressWithXz fuel files archiveBasePath level) := by
  apply opensTar_tarBackEnd
  intro _
  apply finishing_guard (fun _ => rfl) (fun _ => rfl) (only_closeAll _ _)
  intro _
  apply finishing_guard (fun _ => rfl) (fun _ => rfl) (only_closeAll _ _)
  intro _
  apply finishing_bind (stopping_whileFread fun _ => stopping_lzmaRun _)
  · exact only_closeAll _ _
  · apply finishing_seq (smooth_closeAll _)
    intro _
    apply finishing_seq smooth_lzmaFinish
    intro ret
    exact finishing_seq (smooth_closeAll _) fun _ => finishing_remove _

theorem opensTar_compressWithLz4 (files : List Str) (archiveBasePath : Str) (level : Int) :
    OpensTar (archiveBasePath ++ ascii ".tar") (archiveBasePath ++ ascii ".tar.lz4")
      (compressWithLz4 fuel files archiveBasePath level) := by
  apply opensTar_tarBackEnd
  intro _
  apply finishing_guard (fun _ => rfl) (fun _ => rfl) (only_closeAll _ _)
  intro _
  refine finishing_blocks _ fun bytes => ?_
  apply stopping_sys (fun _ => rfl)
  · rintro (_ | out) hstops
    · rfl
    · cases hstops
  rintro (_ | out) hstops
  · cases hstops
  · exact stopping_quiet (fun _ => ⟨rfl, rfl⟩) fun _ => stopping_ret

theorem opensTar_compressWith {format : Format} {suffix : Str}
    (hsuffix : tarSuffix format = some suffix) (files : List Str) (archiveBasePath : Str)
    (level : Int) :
    OpensTar (archiveBasePath ++ ascii ".tar") (archiveBasePath ++ suffix)
      (compressWith fuel (some format) files archiveBasePath level) := by
  cases format with
  | zstd =>
      cases hsuffix
      exact opensTar_compressWithZstd _ _ _
  | gzip =>
      cases hsuffix
      exact opensTar_compressWithGzip _ _ _
  | xz =>
      cases hsuffix
      exact opensTar_compressWithXz _ _ _
  | lzma =>
      cases hsuffix
      exact opensTar_compressWithXz _ _ _
  | lz4 =>
      cases hsuffix
      exact opensTar_compressWithLz4 files archiveBasePath level
  | zip => cases hsuffix

end Programs

/-! ### The files after a compression -/

section Files

variable {Place : Type} [DecidableEq Place] {naming : Naming Place} {left : Place → List UInt8}
  {tree : FileTree Place} {tarPath archivePath : Str}

theorem changed_of_strays {e : ServerEvent} (h : strays archivePath e = false) :
    ∀ path ∈ e.op.changed, path = archivePath := by
  simpa [strays] using h

/-- What leads neither to the tar file nor to the archive. -/
theorem filesAfter_elsewhere {place : Place} {opened : Bool} {rest : List ServerEvent}
    (finishes : Finishes tarPath archivePath rest) (htar : place ≠ naming.locate tarPath)
    (harchive : place ≠ naming.locate archivePath) :
    filesAfter naming left tree (tarOpened tarPath opened :: rest) place = tree place := by
  have kept {events : List ServerEvent} (keeps : ∀ e ∈ events, strays archivePath e = false) :
      ∀ e ∈ events, ∀ path ∈ e.op.changed, place ≠ naming.locate path := by
    intro e he path hpath
    rw [changed_of_strays (keeps e he) path hpath]
    exact harchive
  have tar {op : SysCall} (hop : op.changed = [tarPath]) :
      ∀ path ∈ op.changed, place ≠ naming.locate path := by
    rw [hop]
    rintro path (_ | ⟨_, ⟨⟩⟩)
    exact htar
  apply filesAfter_of_changed
  refine List.forall_mem_cons.mpr ⟨tar rfl, ?_⟩
  rcases finishes with ⟨keeps, -⟩ | ⟨mid, removed, rfl, hmid⟩
  · exact kept keeps
  · refine List.forall_mem_append.mpr ⟨kept fun e he => (hmid e he).1, ?_⟩
    rintro e (_ | ⟨_, ⟨⟩⟩)
    exact tar rfl

/-- Up to its end a back end leaves the tar file as it was opened. -/
theorem filesAfter_tar {opened : Bool} {mid : List ServerEvent}
    (keeps : ∀ e ∈ mid, strays archivePath e = false)
    (apart : naming.locate tarPath ≠ naming.locate archivePath) :
    filesAfter naming left tree (tarOpened tarPath opened :: mid) (naming.locate tarPath) =
      if opened then some (.file (left (naming.locate tarPath)))
      else tree (naming.locate tarPath) := by
  have hmid : filesAfter naming left (fileEffect naming left tree (tarOpened tarPath opened)) mid
      (naming.locate tarPath) =
        fileEffect naming left tree (tarOpened tarPath opened) (naming.locate tarPath) := by
    apply filesAfter_of_changed
    intro e he path hpath
    rw [changed_of_strays (keeps e he) path hpath]
    exact apart
  refine hmid.trans ?_
  cases opened with
  | true => exact FileTree.set_self _
  | false => rfl

/-- A call that changes the tar file is none of the part before the removal. -/
theorem notMem_of_keeps {e : ServerEvent} {mid : List ServerEvent}
    (keeps : ∀ e ∈ mid, strays archivePath e = false) (hne : tarPath ≠ archivePath)
    (hchanged : e.op.changed = [tarPath]) : e ∉ mid := by
  intro hmem
  refine hne (changed_of_strays (keeps e hmem) tarPath ?_)
  rw [hchanged]
  exact List.mem_singleton_self _

theorem tarOpened_notMem {opened : Bool} {rest : List ServerEvent}
    (finishes : Finishes tarPath archivePath rest) (hne : tarPath ≠ archivePath) :
    tarOpened tarPath opened ∉ rest := by
  rcases finishes with ⟨keeps, -⟩ | ⟨mid, removed, rfl, hmid⟩
  · exact notMem_of_keeps keeps hne rfl
  · intro hmem
    rcases List.mem_append.mp hmem with hfirst | (_ | ⟨_, ⟨⟩⟩)
    exact notMem_of_keeps (fun e he => (hmid e he).1) hne rfl hfirst

/-- The tar file is gone when the back end cleans up. -/
theorem filesAfter_of_cleansUp {opened : Bool} {rest : List ServerEvent}
    (finishes : Finishes tarPath archivePath rest)
    (cleans : CleansUp tarPath (tarOpened tarPath opened :: rest)) :
    filesAfter naming left tree (tarOpened tarPath opened :: rest) (naming.locate tarPath) =
      none := by
  obtain ⟨hstops, hremove⟩ := cleans
  rcases finishes with ⟨-, e, he, hstop⟩ | ⟨mid, removed, rfl, -⟩
  · rw [hstops e (List.mem_cons_of_mem _ he)] at hstop
    cases hstop
  · cases removed with
    | false => exact absurd (by simp) hremove
    | true =>
        rw [← List.cons_append, filesAfter_append]
        exact FileTree.set_self _

/-- It is as it was opened when the back end does not. -/
theorem filesAfter_of_not_cleansUp {opened : Bool} {rest : List ServerEvent}
    (finishes : Finishes tarPath archivePath rest)
    (apart : naming.locate tarPath ≠ naming.locate archivePath)
    (leaves : ¬ CleansUp tarPath (tarOpened tarPath opened :: rest)) :
    filesAfter naming left tree (tarOpened tarPath opened :: rest) (naming.locate tarPath) =
      if opened then some (.file (left (naming.locate tarPath)))
      else tree (naming.locate tarPath) := by
  rcases finishes with ⟨keeps, -⟩ | ⟨mid, removed, rfl, hmid⟩
  · exact filesAfter_tar keeps apart
  · have keeps : ∀ e ∈ mid, strays archivePath e = false := fun e he => (hmid e he).1
    cases removed with
    | false =>
        rw [← List.cons_append, filesAfter_append]
        exact filesAfter_tar keeps apart
    | true =>
        refine absurd ⟨?_, ?_⟩ leaves
        · refine List.forall_mem_cons.mpr ⟨rfl, ?_⟩
          refine List.forall_mem_append.mpr ⟨fun e he => (hmid e he).2, ?_⟩
          rintro e (_ | ⟨_, ⟨⟩⟩)
          rfl
        · have hne : tarPath ≠ archivePath := fun heq => apart (congrArg naming.locate heq)
          rintro (_ | ⟨_, hrest⟩)
          rcases List.mem_append.mp hrest with hfirst | (_ | ⟨_, ⟨⟩⟩)
          exact notMem_of_keeps keeps hne rfl hfirst

/-- The tar file is the only one to look at. -/
theorem onlyArchive_iff_tar {opened : Bool} {rest : List ServerEvent}
    (finishes : Finishes tarPath archivePath rest)
    (apart : naming.locate tarPath ≠ naming.locate archivePath) :
    OnlyArchive naming archivePath tree
        (filesAfter naming left tree (tarOpened tarPath opened :: rest)) ↔
      filesAfter naming left tree (tarOpened tarPath opened :: rest) (naming.locate tarPath) =
        tree (naming.locate tarPath) := by
  constructor
  · intro only
    exact only tarPath apart
  · intro htar path hpath
    by_cases hplace : naming.locate path = naming.locate tarPath
    · rw [hplace]
      exact htar
    · exact filesAfter_elsewhere finishes hplace hpath

/-- All files but the archive are as they were exactly when the name of the tar file was free
and the back end removes it, or it was not made. The run may end in any failure that the back
end returns from, with any left-over of the tar file. -/
theorem only_archive_iff {fuel : Nat} {format : Format} {suffix : Str}
    (hsuffix : tarSuffix format = some suffix) {files : List Str} {archiveBasePath : Str}
    {level : Int} {events : List ServerEvent} {made : Bool}
    (run : Exec (compressWith fuel (some format) files archiveBasePath level) events (.ok made)) :
    OnlyArchive naming (archiveBasePath ++ suffix) tree (filesAfter naming left tree events) ↔
      CleansUp (archiveBasePath ++ ascii ".tar") events ∧
          tree (naming.locate (archiveBasePath ++ ascii ".tar")) = none ∨
        ¬ CleansUp (archiveBasePath ++ ascii ".tar") events ∧
          (tarOpened (archiveBasePath ++ ascii ".tar") true ∈ events →
            tree (naming.locate (archiveBasePath ++ ascii ".tar")) =
              some (.file (left (naming.locate (archiveBasePath ++ ascii ".tar"))))) := by
  obtain ⟨opened, rest, rfl, finishes⟩ :=
    opensTar_compressWith hsuffix files archiveBasePath level events _ run made rfl
  have apart := naming.tar_ne hsuffix archiveBasePath
  rw [onlyArchive_iff_tar finishes apart]
  by_cases cleans : CleansUp (archiveBasePath ++ ascii ".tar")
      (tarOpened (archiveBasePath ++ ascii ".tar") opened :: rest)
  · rw [filesAfter_of_cleansUp finishes cleans, or_iff_left fun leaves => leaves.1 cleans,
      and_iff_right cleans]
    exact eq_comm
  · rw [filesAfter_of_not_cleansUp finishes apart cleans, or_iff_right fun gone => cleans gone.1,
      and_iff_right cleans]
    cases opened with
    | true => simp [eq_comm]
    | false =>
        have hne : archiveBasePath ++ ascii ".tar" ≠ archiveBasePath ++ suffix :=
          fun heq => apart (congrArg naming.locate heq)
        refine iff_of_true (if_neg Bool.false_ne_true) fun hmem => ?_
        rcases List.mem_cons.mp hmem with heq | hrest
        · cases heq
        · exact absurd hrest (tarOpened_notMem finishes hne)

end Files

/-! ### An archive next to a tar file -/

/-- Every path is a place of its own. -/
def plainNaming : Naming Str where
  locate path := path
  apart _ _ _ _ _ _ _ heq := List.append_cancel_left heq

/-- The calls of an lz4 compression without files, all of which succeed. -/
def emptyArchiveEvents : List ServerEvent :=
  [tarOpened (ascii "a" ++ ascii ".tar") true,
    ⟨.compression .archiveWriteClose, true⟩,
    ⟨.compression (.fopen (ascii "a" ++ ascii ".tar.lz4") .wb), true⟩,
    ⟨.compression (.fopen (ascii "a" ++ ascii ".tar") .rb), true⟩,
    ⟨.compression (.fread (ascii "a" ++ ascii ".tar")), FreadResult.block [0]⟩,
    ⟨.compression (.lz4CompressDefault [0]), some [1]⟩,
    ⟨.compression (.fwrite (ascii "a" ++ ascii ".tar.lz4") [1]), true⟩,
    ⟨.compression (.fread (ascii "a" ++ ascii ".tar")), FreadResult.eof⟩,
    ⟨.compression (.fclose (ascii "a" ++ ascii ".tar")), true⟩,
    ⟨.compression (.fclose (ascii "a" ++ ascii ".tar.lz4")), true⟩,
    ⟨.remove (ascii "a" ++ ascii ".tar"), true⟩]

theorem exec_emptyArchiveEvents :
    Exec (compressWith 2 (some .lz4) [] (ascii "a") 1) emptyArchiveEvents (.ok true) :=
  .call _ (.call _ (.call _ (.call _ (.call _ (.call _ (.call _ (.call _ (.call _ (.call _
    (.call _ (.ret _)))))))))))

theorem only_archive_example :
    OnlyArchive plainNaming (ascii "a" ++ ascii ".tar.lz4") (fun _ => none)
      (filesAfter plainNaming (fun _ => [1]) (fun _ => none) emptyArchiveEvents) := by
  refine (only_archive_iff rfl exec_emptyArchiveEvents).mpr (.inl ⟨⟨?_, ?_⟩, rfl⟩)
  · simp [emptyArchiveEvents, tarOpened, stops, failureReported, libraryFailureReported]
  · simp only [emptyArchiveEvents, tarOpened, List.mem_cons, List.not_mem_nil, or_false, not_or]
    and_intros <;> rintro ⟨⟩

/-- A file of the name of the tar file is lost. -/
theorem not_only_archive :
    Exec (compressWith 2 (some .lz4) [] (ascii "a") 1) emptyArchiveEvents (.ok true) ∧
      ¬ OnlyArchive plainNaming (ascii "a" ++ ascii ".tar.lz4")
        (fun path => if path = ascii "a.tar" then some (.file [7]) else none)
        (filesAfter plainNaming (fun _ => [1])
          (fun path => if path = ascii "a.tar" then some (.file [7]) else none)
          emptyArchiveEvents) := by
  refine ⟨exec_emptyArchiveEvents, fun only => ?_⟩
  have htar := only (ascii "a.tar") (by decide)
  revert htar
  decide

end ConcurrentTcp
