import ConcurrentTcp.Server.WorkingDirectory

/-!
Requests that name one file or directory.

Remove, mkdir, file open and upload start paste a name onto the working
directory once `isValidFilename` accepts it. The check does not reject `..`, which
leaves the user's directory from its top, and the upload handler cuts the path at
511 bytes. `single_name_inside_iff` says exactly when the path stays inside.
-/

namespace ConcurrentTcp

open Interaction Transition LexicalPath

/-! ### What the handlers touch -/

/-- The name a request carries. -/
def singleName? : PacketType → Buffer → Option Str
  | .reqRemovePath, b => PacketCurrentDirectory.decodePath b
  | .reqMkdir, b => PacketCurrentDirectory.decodePath b
  | .reqFileOpen, b => PacketDownloadFile.decodePath b
  | .reqFileTransferStart, b => PacketTransferFileStart.decodeFileName b
  | _, _ => none

/-- The path the handler of a request works on. -/
def singlePath (ty : PacketType) (session : Session) (name : Str) : Str :=
  if ty = .reqFileTransferStart then snprintfPath session name else session.path name

/-- The path a call removes, creates or opens. -/
def SysCall.touched? : SysCall → Option Str
  | .remove path => some path
  | .removeAll path => some path
  | .mkdir path => some path
  | .openFile path _ => some path
  | _ => none

/-- Every path touched is `path`. -/
abbrev TouchesOnly {α : Type} (path : Str) (p : ServerProg α) : Prop :=
  Contract (fun _ => True) (fun e => ∀ touched, e.op.touched? = some touched → touched = path)
    (fun _ => True) p

section Touches

variable {path : Str} {s : HandlerState}

theorem touchesOnly_call {α : Type} {call : SysCall} {next : call.Answer → ServerProg α}
    (here : ∀ touched, call.touched? = some touched → touched = path)
    (later : ∀ ans, TouchesOnly path (next ans)) : TouchesOnly path (.call call next) :=
  fun ans _ => ⟨here, later ans⟩

theorem touchesOnly_sendSampleResp (ty : PacketType) : TouchesOnly path (sendSampleResp s ty) := by
  refine touchesOnly_call ?_ fun _ => trivial
  rintro touched ⟨⟩

theorem touchesOnly_respond {p : Buffer} {length : Nat} :
    TouchesOnly path (s.respond p length) := by
  refine touchesOnly_call ?_ fun _ => trivial
  rintro touched ⟨⟩

theorem touches_reqRemovePath {cb : ConnectionBuffer} {name : Str}
    (hname : PacketCurrentDirectory.decodePath cb.buffer = some name) :
    TouchesOnly (s.session.path name) (reqRemovePath cb s) := by
  unfold reqRemovePath
  rw [hname]
  simp only [orUndefined, Prog.ret_bind]
  split
  · exact touchesOnly_sendSampleResp _
  · refine touchesOnly_call (fun touched h => (Option.some.inj h).symm) fun (file : Bool) => ?_
    cases file with
    | true => exact touchesOnly_sendSampleResp _
    | false =>
        refine touchesOnly_call (fun touched h => (Option.some.inj h).symm) fun removed => ?_
        cases removed with
        | error e => trivial
        | ok count => exact touchesOnly_sendSampleResp _

theorem touches_reqMkdir {cb : ConnectionBuffer} {name : Str}
    (hname : PacketCurrentDirectory.decodePath cb.buffer = some name) :
    TouchesOnly (s.session.path name) (reqMkdir cb s) := by
  unfold reqMkdir
  rw [hname]
  simp only [orUndefined, Prog.ret_bind]
  split
  · exact touchesOnly_sendSampleResp _
  · exact touchesOnly_call (fun touched h => (Option.some.inj h).symm)
      fun _ => touchesOnly_sendSampleResp _

theorem touches_reqFileOpen {cb : ConnectionBuffer} {name : Str}
    (hname : PacketDownloadFile.decodePath cb.buffer = some name) :
    TouchesOnly (s.session.path name) (reqFileOpen cb s) := by
  unfold reqFileOpen
  rw [hname]
  simp only [orUndefined, Prog.ret_bind]
  split
  · exact touchesOnly_sendSampleResp _
  · by_cases hfits : (s.session.path name).length < sizeofFilePath
    swap
    · simp only [sprintfPath, hfits, if_false]
      trivial
    simp only [sprintfPath, hfits, if_true]
    refine touchesOnly_call (fun touched h => (Option.some.inj h).symm) fun (file : Int) => ?_
    show TouchesOnly _ (if file ≤ 0 then _ else _)
    split
    · exact touchesOnly_sendSampleResp _
    · refine touchesOnly_call (by rintro touched ⟨⟩) fun size => ?_
      cases size with
      | none => exact touchesOnly_sendSampleResp _
      | some fileSize => exact touchesOnly_respond

theorem touches_reqFileTransferStart {cb : ConnectionBuffer} {name : Str}
    (hname : PacketTransferFileStart.decodeFileName cb.buffer = some name) :
    TouchesOnly (snprintfPath s.session name) (reqFileTransferStart cb s) := by
  unfold reqFileTransferStart
  rw [hname]
  simp only [orUndefined, Prog.ret_bind]
  split
  · exact touchesOnly_sendSampleResp _
  · exact touchesOnly_call (fun touched h => (Option.some.inj h).symm)
      fun _ => touchesOnly_sendSampleResp _

/-- The four handlers touch nothing but the path of the request. -/
theorem touches_dispatch {users : DatabaseHandler} {fuel : Nat} {receiveBuffer : Buffer}
    {cb : ConnectionBuffer} {ty : PacketType} {name : Str}
    (hname : singleName? ty cb.buffer = some name) :
    TouchesOnly (singlePath ty s.session name) (dispatch users fuel ty receiveBuffer cb s) := by
  unfold dispatch
  split
  · exact touchesOnly_sendSampleResp _
  · unfold singleName? at hname
    split at hname
    · exact touches_reqRemovePath hname
    · exact touches_reqMkdir hname
    · exact touches_reqFileOpen hname
    · exact touches_reqFileTransferStart hname
    · cases hname

end Touches

/-! ### Where the path leads -/

theorem resolve_userRoot {id : Str} (hid : Named id) :
    resolve (userRoot id) = ⟨0, [ascii "tmp", id]⟩ := by
  have hsplit : userRoot id = ascii "./tmp" ++ slash :: id := rfl
  rw [hsplit, resolve_child hid.2.1, toMove_named hid]
  rfl

/-- A valid name has no separator. -/
theorem slash_notMem_of_isValidFilename {name : Str} (h : isValidFilename name = true) :
    slash ∉ name := by
  intro hmem
  simp [isValidFilename, hmem] at h

/-- The condition under which a request stays inside: a full path must not be the
parent of the user's directory; a cut one must keep that directory, too. -/
def SingleNameOk (ty : PacketType) (session : Session) (name : Str) : Prop :=
  if ty = .reqFileTransferStart then
    (userRoot session.id).length ≤ 511 ∧
      (session.currentDir ++ slash :: name).take 511 ≠ userRoot session.id ++ slash :: ascii ".."
  else ¬ (session.currentDir = userRoot session.id ∧ name = ascii "..")

theorem currentDir_eq_userRoot_iff {id : Str} {names : List Str} :
    userRoot id ++ slashed names = userRoot id ↔ names = [] := by
  constructor
  · intro heq
    have hnil : slashed names = [] := List.append_right_eq_self.mp heq
    cases names with
    | nil => rfl
    | cons n ns => cases hnil
  · rintro rfl
    exact List.append_nil _

/-- The full path. -/
theorem path_inside_iff {session : Session} {name : Str}
    (root : InUserRoot session.id session.currentDir) (hname : slash ∉ name) :
    AtOrBelow (resolve (userRoot session.id)) (resolve (session.path name)) ↔
      ¬ (session.currentDir = userRoot session.id ∧ name = ascii "..") := by
  obtain ⟨names, hnames, hdir⟩ := root
  unfold Session.path
  rw [hdir, atOrBelow_below_iff hnames hname, currentDir_eq_userRoot_iff]

/-- A path that is cut before the end of the user's directory leads elsewhere. -/
theorem cut_root_outside {id more : Str} (hid : Named id) (hlen : 511 < (userRoot id).length) :
    ¬ AtOrBelow (resolve (userRoot id)) (resolve ((userRoot id ++ more).take 511)) := by
  have hgrown : (ascii "./tmp/").length = 6 := by decide
  have hidlen : 505 < id.length := by
    unfold userRoot at hlen
    rw [List.length_append, hgrown] at hlen
    omega
  have hcut : (userRoot id ++ more).take 511 = ascii "./tmp" ++ slash :: id.take 505 := by
    unfold userRoot
    rw [List.append_assoc, List.take_append, hgrown, List.take_of_length_le (by rw [hgrown]; omega),
      List.take_append_of_le_length (by omega)]
    rfl
  have hnamed : Named (id.take 505) := by
    have hlong : (id.take 505).length = 505 := List.length_take_of_le (by omega)
    refine ⟨?_, fun hmem => hid.2.1 (List.mem_of_mem_take hmem), ?_, ?_⟩
    · rintro h
      rw [h] at hlong
      cases hlong
    · rintro h
      rw [h] at hlong
      cases hlong
    · rintro h
      rw [h] at hlong
      cases hlong
  rw [hcut, resolve_child hnamed.2.1, toMove_named hnamed, resolve_userRoot hid]
  rintro ⟨-, hbelow⟩
  have heq : id = id.take 505 := by
    have hlist : [ascii "tmp", id] <+: [ascii "tmp", id.take 505] := hbelow
    have := hlist.eq_of_length rfl
    simpa using this
  have hlength := congrArg List.length heq
  rw [List.length_take_of_le (by omega)] at hlength
  omega

/-- The cut path. -/
theorem snprintfPath_inside_iff {session : Session} {name : Str} (hid : Named session.id)
    (root : InUserRoot session.id session.currentDir) (hname : slash ∉ name) :
    AtOrBelow (resolve (userRoot session.id)) (resolve (snprintfPath session name)) ↔
      (userRoot session.id).length ≤ 511 ∧
        (session.currentDir ++ slash :: name).take 511 ≠
          userRoot session.id ++ slash :: ascii ".." := by
  obtain ⟨names, hnames, hdir⟩ := root
  have hwritten : snprintfPath session name = (session.currentDir ++ slash :: name).take 511 := rfl
  rw [hwritten, hdir]
  by_cases hlen : (userRoot session.id).length ≤ 511
  swap
  · refine iff_of_false ?_ fun h => hlen h.1
    rw [List.append_assoc]
    exact cut_root_outside hid (by omega)
  have hcut : (userRoot session.id ++ slashed names ++ slash :: name).take 511 =
      userRoot session.id ++
        (slashed (names ++ [name])).take (511 - (userRoot session.id).length) := by
    rw [List.append_assoc, List.take_append, List.take_of_length_le hlen, slashed_append]
    simp
  rw [hcut]
  rcases prefix_slashed (List.take_prefix (511 - (userRoot session.id).length)
    (slashed (names ++ [name]))) with hnil | ⟨front, part, n, hpart, hfront, hn⟩
  · rw [hnil, List.append_nil]
    refine iff_of_true (.refl _) ⟨hlen, fun heq => ?_⟩
    have hlength := congrArg List.length heq
    simp at hlength
  · have hlength := hfront.length_le
    rw [List.length_append, List.length_append] at hlength
    have hfrontNames : front <+: names :=
      List.prefix_of_prefix_length_le ((List.prefix_append front [n]).trans hfront)
        (List.prefix_append names [name]) (by simpa using hlength)
    have hsep : slash ∉ part := by
      intro hmem
      have hn' : n ∈ names ++ [name] :=
        hfront.mem (List.mem_append_right _ List.mem_cons_self)
      rcases List.mem_append.mp hn' with old | new
      · exact (hnames n old).2.1 (hn.mem hmem)
      · exact hname (List.mem_singleton.mp new ▸ hn.mem hmem)
    have hparent : userRoot session.id ++ slashed front ++ slash :: part =
        userRoot session.id ++ slash :: ascii ".." ↔ front = [] ∧ part = ascii ".." :=
      below_eq_parent_iff
    have hnamed : ∀ m ∈ front, Named m := fun m hm => hnames m (hfrontNames.mem hm)
    rw [hpart, ← List.append_assoc, atOrBelow_below_iff hnamed hsep, ← hparent]
    exact ⟨fun hne => ⟨hlen, hne⟩, fun h => h.2⟩

/-! ### The four requests -/

/-- In every reachable session, a request with an accepted name touches only its
path, and the path is the user's directory or below it exactly when `SingleNameOk`
says so. -/
theorem single_name_inside_iff {users : DatabaseHandler} (huuid : NamedUuids users)
    {w : SessionState} (h : Reachable (sessionSystem users) w) {c : ConnId} {session : Session}
    (hlive : w.live c = some session) (hid : session.id ≠ []) {ty : PacketType}
    {cb : ConnectionBuffer} {name : Str} (hname : singleName? ty cb.buffer = some name)
    (valid : isValidFilename name = true) :
    (∀ fuel receiveBuffer tls events out,
        Exec (dispatch users fuel ty receiveBuffer cb ⟨session, w.g, tls⟩) events out →
        ∀ e ∈ events, ∀ path, e.op.touched? = some path → path = singlePath ty session name) ∧
      (AtOrBelow (resolve (userRoot session.id)) (resolve (singlePath ty session name)) ↔
        SingleNameOk ty session name) := by
  obtain ⟨named, root⟩ := rooted_of_reachable huuid h c session hlive hid
  have hsep := slash_notMem_of_isValidFilename valid
  constructor
  · intro fuel receiveBuffer tls events out run
    have touches : TouchesOnly (singlePath ty session name)
        (dispatch users fuel ty receiveBuffer cb ⟨session, w.g, tls⟩) :=
      touches_dispatch (s := ⟨session, w.g, tls⟩) hname
    exact (touches.sound run fun _ _ => trivial).1
  · unfold singlePath SingleNameOk
    split
    · exact snprintfPath_inside_iff named root hsep
    · exact path_inside_iff root hsep

/-- The remove handler falls back to removing a directory tree at the path. -/
theorem exists_run_removeAll {cb : ConnectionBuffer} {name : Str} (s : HandlerState)
    (hname : PacketCurrentDirectory.decodePath cb.buffer = some name)
    (valid : isValidFilename name = true) :
    ∃ events t, Exec (reqRemovePath cb s) events (.ok t) ∧
      ∃ e ∈ events, e.op = .removeAll (s.session.path name) := by
  unfold reqRemovePath
  rw [hname]
  simp only [orUndefined, Prog.ret_bind]
  rw [if_neg (by simp [valid])]
  have removed : Exec (do
      let directory ← removeDirectory (s.session.path name)
      sendSampleResp s (if directory then .respOk else .respIoError))
      [⟨.removeAll (s.session.path name), (.ok 1 : Except FsError Nat)⟩, _] (.ok _) :=
    .call _ (exec_respond _ _ _)
  refine ⟨⟨.remove (s.session.path name), false⟩ :: _, _, .call _ removed, _,
    List.mem_cons_of_mem _ List.mem_cons_self, rfl⟩

/-- A path packet as the client sends it. -/
def pathPacket (ty : PacketType) (path : Str) : ConnectionBuffer where
  connection := 0
  frame := [1, ty.toByte] ++ le16 sizeofPacketCurrentDirectory ++ strncpy path 512

/-- The user's directory has a parent, and its name is valid. -/
theorem remove_parent_outside :
    isValidFilename (ascii "..") = true ∧
      (∃ events t, Exec (dispatch exampleUsers 0 .reqRemovePath Buffer.zero
          (pathPacket .reqRemovePath (ascii "..")) ⟨rootSession, adminConnected, Buffer.zero⟩)
          events (.ok t) ∧ ∃ e ∈ events, e.op = .removeAll (ascii "./tmp/1/..")) ∧
      ¬ AtOrBelow (resolve (userRoot rootSession.id)) (resolve (ascii "./tmp/1/..")) :=
  ⟨by decide, exists_run_removeAll ⟨rootSession, adminConnected, Buffer.zero⟩ (by decide)
    (by decide), by decide⟩

theorem mkdir_inside :
    AtOrBelow (resolve (userRoot rootSession.id))
      (resolve (singlePath .reqMkdir rootSession (ascii "a"))) := by
  have hname : singleName? .reqMkdir (pathPacket .reqMkdir (ascii "a")).buffer =
      some (ascii "a") := by decide
  have ok : SingleNameOk .reqMkdir rootSession (ascii "a") := by
    unfold SingleNameOk
    decide
  exact (single_name_inside_iff namedUuids_exampleUsers reachable_rootSession
    (SessionState.set_live_self ..) (by decide) hname (by decide)).2.mpr ok

end ConcurrentTcp
