import ConcurrentTcp.Common.PathPrefix
import ConcurrentTcp.Server.AdminPrivilege

/-!
Moving and copying files.

The handlers make the paths canonical, and the check makes them canonical once more
and compares what is rendered then. A run is considered in a file system whose
`weakly_canonical` is a function `canonical` while the request is handled; that a
canonical path is its own canonical path is not assumed, as links can change it.
`move_copy_inside_iff` says for which requests a rename or copy happens only inside
the user's directory. Without links they are those that do not reach beside it
(`transferOk_iff_of_fixed`).
-/

namespace ConcurrentTcp

open Interaction FsPath

/-- The answers of `weakly_canonical` are those of `canonical`. -/
def Follows (canonical : Str → Except FsError FsPath) : ServerEvent → Prop
  | ⟨.weaklyCanonical path, ans⟩ => ans = canonical path
  | _ => True

/-- The canonical paths of a request. -/
structure TransferPaths where
  userDir : FsPath
  source : FsPath
  destination : FsPath

def transferPaths (canonical : Str → Except FsError FsPath) (session : Session)
    (p : PacketMoveFile) : Except FsError TransferPaths := do
  let userDir ← canonical (ascii "./tmp/" ++ session.id)
  let currentDir ← canonical session.currentDir
  let source ← canonical (fsAppend currentDir.string p.firstPath)
  let destination ← canonical (fsAppend currentDir.string p.secondPath)
  return { userDir, source, destination }

theorem transferPaths_eq_ok {canonical : Str → Except FsError FsPath} {session : Session}
    {p : PacketMoveFile} {paths : TransferPaths}
    (h : transferPaths canonical session p = .ok paths) :
    ∃ currentDir, canonical (ascii "./tmp/" ++ session.id) = .ok paths.userDir ∧
      canonical session.currentDir = .ok currentDir ∧
      canonical (fsAppend currentDir.string p.firstPath) = .ok paths.source ∧
      canonical (fsAppend currentDir.string p.secondPath) = .ok paths.destination := by
  unfold transferPaths at h
  cases huser : canonical (ascii "./tmp/" ++ session.id) with
  | error e => simp [huser, bind, Except.bind] at h
  | ok userDir =>
      cases hcurrent : canonical session.currentDir with
      | error e => simp [huser, hcurrent, bind, Except.bind] at h
      | ok currentDir =>
          cases hsource : canonical (fsAppend currentDir.string p.firstPath) with
          | error e => simp [huser, hcurrent, hsource, bind, Except.bind] at h
          | ok source =>
              cases hdestination : canonical (fsAppend currentDir.string p.secondPath) with
              | error e => simp [huser, hcurrent, hsource, hdestination, bind, Except.bind] at h
              | ok destination =>
                  simp only [huser, hcurrent, hsource, hdestination, bind, Except.bind] at h
                  cases h
                  exact ⟨currentDir, rfl, rfl, hsource, hdestination⟩

/-- The paths that the check compares: each is made canonical once more. -/
def checkedPaths (canonical : Str → Except FsError FsPath) (paths : TransferPaths) :
    Except FsError TransferPaths := do
  let source ← canonical paths.source.string
  let userDir ← canonical paths.userDir.string
  let destination ← canonical paths.destination.string
  return { userDir, source, destination }

theorem checkedPaths_eq_ok_iff {canonical : Str → Except FsError FsPath}
    {paths checked : TransferPaths} :
    checkedPaths canonical paths = .ok checked ↔
      canonical paths.source.string = .ok checked.source ∧
        canonical paths.userDir.string = .ok checked.userDir ∧
        canonical paths.destination.string = .ok checked.destination := by
  unfold checkedPaths
  constructor
  · intro h
    cases hsource : canonical paths.source.string with
    | error e => simp [hsource, bind, Except.bind] at h
    | ok source =>
        cases huser : canonical paths.userDir.string with
        | error e => simp [hsource, huser, bind, Except.bind] at h
        | ok userDir =>
            cases hdestination : canonical paths.destination.string with
            | error e => simp [hsource, huser, hdestination, bind, Except.bind] at h
            | ok destination =>
                simp only [hsource, huser, hdestination, bind, Except.bind] at h
                cases h
                exact ⟨rfl, rfl, rfl⟩
  · rintro ⟨hsource, huser, hdestination⟩
    simp only [hsource, huser, hdestination, bind, Except.bind]
    rfl

/-- Source and destination of a `rename` or `copy_file`. -/
def SysCall.operands? : SysCall → Option (Str × Str)
  | .rename source destination => some (source, destination)
  | .copyFile source destination => some (source, destination)
  | _ => none

/-! ### Calls of `weakly_canonical` -/

section Canonical

variable {canonical : Str → Except FsError FsPath} {α : Type}

theorem contract_canonical {guar : ServerEvent → Prop} {path : Str}
    {next : FsPath → ServerProg α} (event : ∀ ans, guar ⟨.weaklyCanonical path, ans⟩)
    (later : ∀ p, canonical path = .ok p →
      Contract (Follows canonical) guar (fun _ => True) (next p)) :
    Contract (Follows canonical) guar (fun _ => True) (do
      let p ← orThrow (← sys (.weaklyCanonical path))
      next p) := by
  intro ans answer
  refine ⟨event ans, ?_⟩
  have hans : ans = canonical path := answer
  cases hp : canonical path with
  | error e =>
      rw [hp] at hans
      subst hans
      trivial
  | ok p =>
      rw [hp] at hans
      subst hans
      exact later p hp

theorem calls_canonical {path : Str} {p : FsPath} {next : FsPath → ServerProg α}
    {e : ServerEvent} (hp : canonical path = .ok p) (later : Calls (Follows canonical) (next p) e) :
    Calls (Follows canonical) (do
      let p ← orThrow (← sys (.weaklyCanonical path))
      next p) e := by
  have answer : Follows canonical
      ⟨.weaklyCanonical path, (.ok p : Except FsError FsPath)⟩ := hp.symm
  exact .later _ answer later

/-- The check goes on with what it finds of the two canonical paths. -/
theorem contract_within {guar : ServerEvent → Prop} {path userDir : FsPath}
    {next : Bool → ServerProg α} (event : ∀ q ans, guar ⟨.weaklyCanonical q, ans⟩)
    (later : ∀ p d, canonical path.string = .ok p → canonical userDir.string = .ok d →
      Contract (Follows canonical) guar (fun _ => True) (next (isWithin p d))) :
    Contract (Follows canonical) guar (fun _ => True)
      (isPathWithinUserDir path.string userDir.string >>= next) := by
  unfold isPathWithinUserDir
  simp only [Prog.bind_assoc]
  refine contract_canonical (event _) fun p hp => ?_
  refine contract_canonical (event _) fun d hd => ?_
  exact later p d hp hd

theorem calls_within {path userDir p d : FsPath} {next : Bool → ServerProg α} {e : ServerEvent}
    (hpath : canonical path.string = .ok p) (huser : canonical userDir.string = .ok d)
    (later : Calls (Follows canonical) (next (isWithin p d)) e) :
    Calls (Follows canonical) (isPathWithinUserDir path.string userDir.string >>= next) e := by
  unfold isPathWithinUserDir
  simp only [Prog.bind_assoc]
  exact calls_canonical hpath (calls_canonical huser later)

end Canonical

/-! ### The two handlers -/

/-- The operation makes one call, on the paths it is given. -/
structure TransfersOnce (operation : Str → Str → ServerProg Bool) : Prop where
  only : ∀ source destination, Contract (fun _ => True)
    (fun e => ∀ a b, e.op.operands? = some (a, b) → a = source ∧ b = destination)
    (fun _ => True) (operation source destination)
  does : ∀ canonical source destination, ∃ e,
    Calls (Follows canonical) (operation source destination) e ∧
      e.op.operands? = some (source, destination)

theorem moveFile_transfersOnce : TransfersOnce moveFile where
  only source destination := by
    intro ans _
    refine ⟨?_, ?_⟩
    · rintro a b ⟨⟩
      exact ⟨rfl, rfl⟩
    · cases ans with
      | ok u => trivial
      | error e => trivial
  does canonical source destination := by
    have answer : Follows canonical
        ⟨.rename source destination, (.ok () : Except FsError Unit)⟩ := trivial
    exact ⟨_, .here _ answer, rfl⟩

/-- The operation of `reqCopyFile`. -/
def copyFile (source destination : Str) : ServerProg Bool := do
  orThrow (← sys (.copyFile source destination))

theorem copyFile_transfersOnce : TransfersOnce copyFile where
  only source destination := by
    intro ans _
    refine ⟨?_, ?_⟩
    · rintro a b ⟨⟩
      exact ⟨rfl, rfl⟩
    · cases ans with
      | ok u => trivial
      | error e => trivial
  does canonical source destination := by
    have answer : Follows canonical
        ⟨.copyFile source destination, (.ok true : Except FsError Bool)⟩ := trivial
    exact ⟨_, .here _ answer, rfl⟩

section Transfer

variable {canonical : Str → Except FsError FsPath} {operation : Str → Str → ServerProg Bool}
  {cb : ConnectionBuffer} {s : HandlerState} {p : PacketMoveFile}

/-- A transfer is between the canonical paths, and both passed the check. -/
theorem transferPath_checked (once : TransfersOnce operation)
    (hp : PacketMoveFile.decode cb.buffer = some p) :
    Contract (Follows canonical)
      (fun e => ∀ a b, e.op.operands? = some (a, b) →
        ∃ paths checked, transferPaths canonical s.session p = .ok paths ∧
          checkedPaths canonical paths = .ok checked ∧
          a = paths.source.string ∧ b = paths.destination.string ∧
          isWithin checked.source checked.userDir = true ∧
          isWithin checked.destination checked.userDir = true)
      (fun _ => True) (transferPath operation cb s) := by
  unfold transferPath
  rw [hp]
  simp only [orUndefined, Prog.ret_bind]
  refine contract_canonical (by rintro ans a b ⟨⟩) fun userDir huser => ?_
  refine contract_canonical (by rintro ans a b ⟨⟩) fun currentDir hcurrent => ?_
  refine contract_canonical (by rintro ans a b ⟨⟩) fun source hsource => ?_
  refine contract_canonical (by rintro ans a b ⟨⟩) fun destination hdestination => ?_
  have hpaths : transferPaths canonical s.session p = .ok ⟨userDir, source, destination⟩ := by
    unfold transferPaths
    simp only [huser, hcurrent]
    simp only [bind, Except.bind, hsource, hdestination]
    rfl
  refine contract_within (by rintro q ans a b ⟨⟩) fun source' userDir' hsource' huser' => ?_
  split
  · exact fun ans _ => ⟨by rintro a b ⟨⟩, trivial⟩
  rename_i hsourceInside
  refine contract_within (by rintro q ans a b ⟨⟩) fun destination' again hdestination' hagain => ?_
  obtain rfl : again = userDir' := Except.ok.inj (hagain.symm.trans huser')
  split
  · exact fun ans _ => ⟨by rintro a b ⟨⟩, trivial⟩
  rename_i hdestinationInside
  have hchecked : checkedPaths canonical ⟨userDir, source, destination⟩ =
      .ok ⟨again, source', destination'⟩ :=
    checkedPaths_eq_ok_iff.mpr ⟨hsource', huser', hdestination'⟩
  refine .bind ((once.only source.string destination.string).mono (fun _ _ => trivial) ?_ ?_)
  · intro e _ honly a b hop
    obtain ⟨rfl, rfl⟩ := honly a b hop
    exact ⟨_, _, hpaths, hchecked, rfl, rfl, by simpa using hsourceInside,
      by simpa using hdestinationInside⟩
  · intro out _
    cases out with
    | ok done => exact fun ans _ => ⟨by rintro a b ⟨⟩, trivial⟩
    | error e => trivial

/-- A request whose paths pass the check is carried out. -/
theorem exists_transfer (once : TransfersOnce operation)
    (hp : PacketMoveFile.decode cb.buffer = some p) {paths checked : TransferPaths}
    (hpaths : transferPaths canonical s.session p = .ok paths)
    (hchecked : checkedPaths canonical paths = .ok checked)
    (hsource : isWithin checked.source checked.userDir = true)
    (hdestination : isWithin checked.destination checked.userDir = true) :
    ∃ e, Calls (Follows canonical) (transferPath operation cb s) e ∧
      e.op.operands? = some (paths.source.string, paths.destination.string) := by
  obtain ⟨currentDir, huser, hcurrent, hs, hd⟩ := transferPaths_eq_ok hpaths
  obtain ⟨hs', huser', hd'⟩ := checkedPaths_eq_ok_iff.mp hchecked
  obtain ⟨e, call, hop⟩ := once.does canonical paths.source.string paths.destination.string
  refine ⟨e, ?_, hop⟩
  unfold transferPath
  rw [hp]
  simp only [orUndefined, Prog.ret_bind]
  apply calls_canonical huser
  apply calls_canonical hcurrent
  apply calls_canonical hs
  apply calls_canonical hd
  apply calls_within hs' huser'
  rw [hsource, if_neg (by decide)]
  apply calls_within hd' huser'
  rw [hdestination, if_neg (by decide)]
  exact call.bind_left

/-- Every transfer is between the canonical paths and inside the user's directory. -/
def TransfersInside (canonical : Str → Except FsError FsPath) (session : Session)
    (p : PacketMoveFile) (e : ServerEvent) : Prop :=
  ∀ a b, e.op.operands? = some (a, b) →
    ∃ paths, transferPaths canonical session p = .ok paths ∧
      a = paths.source.string ∧ b = paths.destination.string ∧
      Below paths.userDir paths.source ∧ Below paths.userDir paths.destination

/-- In the directory that the check compares with, or beside it. -/
def Passes (userDir path : FsPath) : Prop := Inside userDir path ∨ BesideWithin userDir path

/-- Neither path passes from outside of the user's directory while the other passes. What
passes is the path that the check compares, which is made canonical once more. -/
def TransferOk (canonical : Str → Except FsError FsPath) (session : Session)
    (p : PacketMoveFile) : Prop :=
  ∀ paths checked, transferPaths canonical session p = .ok paths →
    checkedPaths canonical paths = .ok checked →
    ¬ (¬ Below paths.userDir paths.source ∧ Passes checked.userDir checked.source ∧
      Passes checked.userDir checked.destination) ∧
    ¬ (¬ Below paths.userDir paths.destination ∧ Passes checked.userDir checked.destination ∧
      Passes checked.userDir checked.source)

theorem isWithin_iff {path userDir : FsPath} :
    isWithin path userDir = true ↔ Passes userDir path :=
  List.isPrefixOf_iff_prefix.trans string_isPrefix_iff

theorem transfer_inside_iff (once : TransfersOnce operation)
    (hp : PacketMoveFile.decode cb.buffer = some p) :
    (∀ e, Calls (Follows canonical) (transferPath operation cb s) e →
        TransfersInside canonical s.session p e) ↔
      TransferOk canonical s.session p := by
  constructor
  · intro inside paths checked hpaths hchecked
    -- Two paths that pass are transferred, and so both are below the directory.
    have below : Passes checked.userDir checked.source →
        Passes checked.userDir checked.destination →
        Below paths.userDir paths.source ∧ Below paths.userDir paths.destination := by
      intro hsource hdestination
      obtain ⟨e, call, hop⟩ := exists_transfer (s := s) once hp hpaths hchecked
        (isWithin_iff.mpr hsource) (isWithin_iff.mpr hdestination)
      obtain ⟨paths', hpaths', -, -, below⟩ := inside e call _ _ hop
      rw [hpaths] at hpaths'
      cases hpaths'
      exact below
    constructor
    · rintro ⟨outside, hsource, hdestination⟩
      exact outside (below hsource hdestination).1
    · rintro ⟨outside, hdestination, hsource⟩
      exact outside (below hsource hdestination).2
  · intro ok e call a b hop
    obtain ⟨paths, checked, hpaths, hchecked, ha, hb, hsource, hdestination⟩ :=
      (transferPath_checked once hp).of_calls call a b hop
    obtain ⟨hok, hok'⟩ := ok paths checked hpaths hchecked
    rw [isWithin_iff] at hsource hdestination
    refine ⟨paths, hpaths, ha, hb, ?_, ?_⟩
    · by_contra outside
      exact hok ⟨outside, hsource, hdestination⟩
    · by_contra outside
      exact hok' ⟨outside, hdestination, hsource⟩

/-- Where the canonical paths are their own canonical paths, as they are without links, a
request is as `TransferOk` asks when neither path leads beside the directory while the other
passes. -/
theorem transferOk_iff_of_fixed {session : Session} {paths : TransferPaths}
    (hpaths : transferPaths canonical session p = .ok paths)
    (fixed : checkedPaths canonical paths = .ok paths) :
    TransferOk canonical session p ↔
      ¬ (BesideWithin paths.userDir paths.source ∧ Passes paths.userDir paths.destination) ∧
      ¬ (BesideWithin paths.userDir paths.destination ∧ Passes paths.userDir paths.source) := by
  have outside : ∀ {q : FsPath}, ¬ Below paths.userDir q ∧ Passes paths.userDir q ↔
      BesideWithin paths.userDir q := by
    intro q
    constructor
    · rintro ⟨hnot, inside | beside⟩
      · exact absurd inside.1 hnot
      · exact beside
    · intro beside
      exact ⟨beside.not_below, .inr beside⟩
  constructor
  · intro ok
    obtain ⟨hok, hok'⟩ := ok paths paths hpaths fixed
    rw [← and_assoc, outside] at hok hok'
    exact ⟨hok, hok'⟩
  · rintro ⟨hok, hok'⟩ paths' checked hpaths' hchecked
    obtain rfl : paths = paths' := Except.ok.inj (hpaths.symm.trans hpaths')
    obtain rfl : paths = checked := Except.ok.inj (fixed.symm.trans hchecked)
    rw [← and_assoc, outside, ← and_assoc, outside]
    exact ⟨hok, hok'⟩

end Transfer

/-- In every session with a login, whatever the file system makes of paths, the renames and
copies of a request stay inside the user's directory exactly when the request is as
`TransferOk` asks. The one assumption about `weakly_canonical` is in its type: its results
are absolute and lexically normal, and the same throughout the request. -/
theorem move_copy_inside_iff (canonical : Str → Except FsError FsPath) (users : DatabaseHandler)
    (fuel : Nat) (receiveBuffer : Buffer) {ty : PacketType}
    (hty : ty = .reqMoveFile ∨ ty = .reqCopyFile) {cb : ConnectionBuffer} {p : PacketMoveFile}
    (hp : PacketMoveFile.decode cb.buffer = some p) {s : HandlerState}
    (hid : s.session.id ≠ []) :
    (∀ e, Calls (Follows canonical) (dispatch users fuel ty receiveBuffer cb s) e →
        TransfersInside canonical s.session p e) ↔
      TransferOk canonical s.session p := by
  rcases hty with rfl | rfl
  · rw [dispatch_authorized hid rfl]
    exact transfer_inside_iff moveFile_transfersOnce hp
  · rw [dispatch_authorized hid rfl]
    exact transfer_inside_iff copyFile_transfersOnce hp

/-! ### A sibling directory -/

/-- The server runs in `/srv`, without symbolic links. -/
def exampleCanonical (path : Str) : Except FsError FsPath :=
  .ok (lexical [⟨ascii "srv", by decide⟩] path)

/-- There a canonical path is its own canonical path. -/
theorem exampleCanonical_string (cwd : List EntryName) (path : Str) :
    exampleCanonical (lexical cwd path).string = .ok (lexical cwd path) :=
  congrArg Except.ok (lexical_string _ _)

/-- A move packet as the client sends it. -/
def movePacket (firstPath secondPath : Str) : ConnectionBuffer where
  connection := 0
  frame := [1, PacketType.reqMoveFile.toByte] ++ le16 sizeofPacketMoveFile ++
    strncpy firstPath 512 ++ strncpy secondPath 512

/-- The user with UUID `ab`. -/
def bobSession : Session :=
  { Session.accepted 5 with id := ascii "ab", currentDir := ascii "./tmp/ab" }

/-- The canonical paths of the user `ab`, seen from `/srv`. -/
def bobPaths (source destination : Str) : TransferPaths :=
  ⟨lexical [⟨ascii "srv", by decide⟩] (ascii "./tmp/ab"), lexical [] source,
    lexical [] destination⟩

theorem checkedPaths_bob (source destination : Str) :
    checkedPaths exampleCanonical (bobPaths source destination) =
      .ok (bobPaths source destination) :=
  checkedPaths_eq_ok_iff.mpr
    ⟨exampleCanonical_string .., exampleCanonical_string .., exampleCanonical_string ..⟩

/-- A file of the user with UUID `abc` is moved. -/
theorem move_from_sibling :
    ∃ e, Calls (Follows exampleCanonical)
        (dispatch exampleUsers 0 .reqMoveFile Buffer.zero
          (movePacket (ascii "../abc/x") (ascii "y"))
          ⟨bobSession, .initial, Buffer.zero⟩) e ∧
      e.op.operands? = some (ascii "/srv/tmp/abc/x", ascii "/srv/tmp/ab/y") ∧
      ¬ TransfersInside exampleCanonical bobSession ⟨ascii "../abc/x", ascii "y"⟩ e := by
  have hp : PacketMoveFile.decode (movePacket (ascii "../abc/x") (ascii "y")).buffer =
      some ⟨ascii "../abc/x", ascii "y"⟩ := by decide +kernel
  have hpaths : transferPaths exampleCanonical bobSession ⟨ascii "../abc/x", ascii "y"⟩ =
      .ok (bobPaths (ascii "/srv/tmp/abc/x") (ascii "/srv/tmp/ab/y")) := by rfl
  obtain ⟨e, call, hop⟩ := exists_transfer (s := ⟨bobSession, .initial, Buffer.zero⟩)
    moveFile_transfersOnce hp hpaths (checkedPaths_bob ..) (by decide) (by decide)
  refine ⟨e, call, hop, fun inside => ?_⟩
  obtain ⟨paths, hpaths', -, -, below, -⟩ := inside _ _ hop
  rw [hpaths] at hpaths'
  cases hpaths'
  exact absurd below (by decide)

/-- A move inside the user's directory. -/
theorem move_inside :
    ∃ e, Calls (Follows exampleCanonical)
        (dispatch exampleUsers 0 .reqMoveFile Buffer.zero (movePacket (ascii "x") (ascii "y"))
          ⟨bobSession, .initial, Buffer.zero⟩) e ∧
      e.op.operands? = some (ascii "/srv/tmp/ab/x", ascii "/srv/tmp/ab/y") ∧
      TransfersInside exampleCanonical bobSession ⟨ascii "x", ascii "y"⟩ e := by
  have hp : PacketMoveFile.decode (movePacket (ascii "x") (ascii "y")).buffer =
      some ⟨ascii "x", ascii "y"⟩ := by decide +kernel
  have hpaths : transferPaths exampleCanonical bobSession ⟨ascii "x", ascii "y"⟩ =
      .ok (bobPaths (ascii "/srv/tmp/ab/x") (ascii "/srv/tmp/ab/y")) := by rfl
  obtain ⟨e, call, hop⟩ := exists_transfer (s := ⟨bobSession, .initial, Buffer.zero⟩)
    moveFile_transfersOnce hp hpaths (checkedPaths_bob ..) (by decide) (by decide)
  have ok : TransferOk exampleCanonical bobSession ⟨ascii "x", ascii "y"⟩ :=
    (transferOk_iff_of_fixed hpaths (checkedPaths_bob ..)).mpr
      ⟨fun beside => beside.1.not_below (by decide), fun beside => beside.1.not_below (by decide)⟩
  have inside := (move_copy_inside_iff exampleCanonical exampleUsers 0 Buffer.zero (.inl rfl) hp
    (s := ⟨bobSession, .initial, Buffer.zero⟩) (by decide)).mpr ok
  exact ⟨e, call, hop, inside e call⟩

end ConcurrentTcp
