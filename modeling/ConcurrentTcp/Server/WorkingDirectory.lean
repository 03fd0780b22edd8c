import ConcurrentTcp.Db.Maintenance
import ConcurrentTcp.Server.AdminPrivilege
import ConcurrentTcp.Server.Threads

/-!
The working directory of a session.

`RootedSession` says that a logged-in session works in its user's directory
`./tmp/USERID` or in a directory below it, reached by named components.
`rooted_of_reachable` shows it of every session the server can reach, for any
answers of the file system.
-/

namespace ConcurrentTcp

open Interaction Transition LexicalPath

/-- The directory of a user. -/
def userRoot (id : Str) : Str := ascii "./tmp/" ++ id

/-- `dir` is the user's directory, or is reached from it by named components. -/
def InUserRoot (id dir : Str) : Prop :=
  ∃ names, (∀ n ∈ names, Named n) ∧ dir = userRoot id ++ slashed names

/-- A logged-in session has a UUID that is a name, and works in its root. -/
def RootedSession (session : Session) : Prop :=
  session.id ≠ [] → Named session.id ∧ InUserRoot session.id session.currentDir

/-- Every UUID in the database is the name of a directory entry. -/
def NamedUuids (users : DatabaseHandler) : Prop := ∀ row ∈ users.db.users, Named row.uuid

/-- The maintenance tool writes no other UUIDs. -/
theorem namedUuids_of_generated {users : DatabaseHandler}
    (h : ∀ row ∈ users.db.users, ∃ dis dis2, row.uuid = generateUuid dis dis2) :
    NamedUuids users := by
  intro row hmem
  obtain ⟨dis, dis2, huuid⟩ := h row hmem
  rw [huuid]
  exact named_generateUuid dis dis2

/-! ### Change of directory -/

/-- `cd_command` works on these parts: `./tmp/USERID` and what is below. -/
def rootParts (id : Str) (names : List Str) : List Str := ascii "." :: ascii "tmp" :: id :: names

theorem sjoin_rootParts (id : Str) (names : List Str) :
    sjoin (rootParts id names) slash = userRoot id ++ slashed names := by
  unfold sjoin rootParts userRoot
  rw [intercalate_slash_cons]
  rfl

theorem ssplit_sjoin {parts : List Str} (hne : parts ≠ [])
    (hparts : ∀ part ∈ parts, part ≠ [] ∧ slash ∉ part) :
    ssplit (sjoin parts slash) slash = parts := by
  have hsplit : (sjoin parts slash).splitOn slash = parts :=
    List.splitOn_intercalate slash (fun part h => (hparts part h).2) hne
  unfold ssplit
  rw [hsplit]
  apply if_neg
  intro hlast
  exact (hparts [] (List.mem_of_getLast? hlast)).1 rfl

/-- Splitting the working directory gives back its parts. -/
theorem ssplit_rootParts {id : Str} {names : List Str} (hid : Named id)
    (hnames : ∀ n ∈ names, Named n) :
    ssplit (userRoot id ++ slashed names) slash = rootParts id names := by
  have hparts : ∀ part ∈ rootParts id names, part ≠ [] ∧ slash ∉ part := by
    intro part hpart
    simp only [rootParts, List.mem_cons] at hpart
    rcases hpart with rfl | rfl | rfl | hmem
    · decide
    · decide
    · exact ⟨hid.1, hid.2.1⟩
    · exact ⟨(hnames part hmem).1, (hnames part hmem).2.1⟩
  rw [← sjoin_rootParts]
  exact ssplit_sjoin (by simp [rootParts]) hparts

/-- Going up stops at the user's directory. -/
theorem rootParts_up (id : Str) (names : List Str) :
    (if (rootParts id names).length > 3 then (rootParts id names).dropLast
      else rootParts id names) = rootParts id names.dropLast := by
  cases names with
  | nil => simp [rootParts]
  | cons n ns => simp [rootParts]

/-- The loop of `cd_command` stays in the user's root; the induction is on the
parts of the destination, for any parts already walked. -/
theorem cdParts_inUserRoot {id : Str} {names : List Str} (parts : List Str)
    (hnames : ∀ n ∈ names, Named n) (hparts : ∀ part ∈ parts, slash ∉ part) :
    Ends (fun dir => dir ≠ [] → InUserRoot id dir) (cdParts (rootParts id names) parts) := by
  induction parts generalizing names with
  | nil => exact fun _ => ⟨names, hnames, sjoin_rootParts id names⟩
  | cons part rest ih =>
      obtain ⟨hpart, hrest⟩ := List.forall_mem_cons.mp hparts
      unfold cdParts
      split
      · rw [rootParts_up]
        exact ih (fun n hn => hnames n (List.mem_of_mem_dropLast hn)) hrest
      · rename_i hup
        split
        · rename_i hname
          have named : Named part := ⟨hname.1, hpart, hname.2, hup⟩
          refine .after fun _ => .after fun found => ?_
          split
          · exact fun hne => absurd rfl hne
          · refine .after fun _ => .after fun directory => ?_
            split
            · exact fun hne => absurd rfl hne
            · have hsnoc : rootParts id names ++ [part] = rootParts id (names ++ [part]) := by
                simp [rootParts]
              rw [hsnoc]
              refine ih (fun n hn => ?_) hrest
              rcases List.mem_append.mp hn with old | new
              · exact hnames n old
              · exact List.mem_singleton.mp new ▸ named
        · exact ih hnames hrest

theorem slash_notMem_of_mem_ssplit {path part : Str} (h : part ∈ ssplit path slash) :
    slash ∉ part := by
  unfold ssplit at h
  dsimp only at h
  split at h
  · exact slash_notMem_of_mem_splitOn (List.mem_of_mem_dropLast h)
  · exact slash_notMem_of_mem_splitOn h

/-- A successful change of directory stays in the user's root. -/
theorem cdCommand_inUserRoot {id dir destination : Str} (hid : Named id) (h : InUserRoot id dir) :
    Ends (fun new => new ≠ [] → InUserRoot id new) (cdCommand dir destination) := by
  obtain ⟨names, hnames, rfl⟩ := h
  unfold cdCommand
  rw [ssplit_rootParts hid hnames]
  exact cdParts_inUserRoot _ hnames fun part hpart => slash_notMem_of_mem_ssplit hpart

/-! ### Sessions -/

theorem inUserRoot_self (id : Str) : InUserRoot id (userRoot id) := ⟨[], by simp, by simp⟩

theorem SameLogin.rooted_iff {s t : HandlerState} (same : SameLogin s t) :
    RootedSession t.session ↔ RootedSession s.session := by
  unfold RootedSession
  rw [same.id, same.currentDir]

theorem afterLogin_rooted {users : DatabaseHandler} {s : HandlerState} {p : PacketLogin}
    (huuid : NamedUuids users) (h : RootedSession s.session) :
    RootedSession (s.afterLogin users p).session := by
  have fresh : users.login p.username p.password = true →
      RootedSession (s.session.loggedIn users p.username) := by
    intro accepted _
    obtain ⟨row, hmem, hid⟩ := DatabaseHandler.getID_mem_of_login accepted
    have named : Named (users.getID p.username) := by
      rw [hid]
      exact huuid row hmem
    exact ⟨named, inUserRoot_self _⟩
  unfold HandlerState.afterLogin
  split
  · rename_i accepted
    dsimp only
    split
    · split
      · exact fun hid => absurd rfl hid
      · exact fresh accepted
    · exact fresh accepted
  · exact h

/-- One dispatched packet keeps a session rooted. -/
theorem PacketEffect.rooted {users : DatabaseHandler} {cb : ConnectionBuffer} {s t : HandlerState}
    {ty : PacketType} (huuid : NamedUuids users) (effect : PacketEffect users cb s t ty)
    (h : RootedSession s.session) : RootedSession t.session := by
  cases effect with
  | login p hdecode same => exact same.rooted_iff.mpr (afterLogin_rooted huuid h)
  | logout same => exact same.rooted_iff.mpr fun hid => absurd rfl hid
  | changeDirectory path newDir moves hid cd hne same =>
      apply same.rooted_iff.mpr
      intro _
      obtain ⟨named, root⟩ := h hid
      exact ⟨named, (cdCommand_inUserRoot named root).returns cd hne⟩
  | keep hlogin hlogout same => exact same.rooted_iff.mpr h

/-- Every live session of a reachable state is rooted. -/
theorem rooted_of_reachable {users : DatabaseHandler} (huuid : NamedUuids users)
    {w : SessionState} (h : Reachable (sessionSystem users) w) :
    ∀ c session, w.live c = some session → RootedSession session := by
  refine h.invariant (I := fun w => ∀ c session, w.live c = some session → RootedSession session)
    ?_ ?_
  · rintro w rfl c session ⟨⟩
  · intro w l v now step
    exact step.forall_live now (fun _ hid => absurd rfl hid)
      fun _ _ _ _ _ _ _ _ _ effect rooted => effect.rooted huuid rooted

/-- So are the sessions of the threads. -/
theorem rooted_of_threads {users : DatabaseHandler} (huuid : NamedUuids users) {s : ServerState}
    (h : Reachable (threadSystem users) s) {c : ConnId} {connection : ConnectionWrapper}
    (hlive : s.connections c = some connection) : RootedSession connection.toSession :=
  rooted_of_reachable huuid (threadSystem_refines_sessions h) c _ (live_sessions hlive)

/-- The working directory never leaves the user's root: in every reachable state, that of a
connection with a login is the root or below it, with single names for its parts. This needs
UUIDs that are single names, as the maintenance tool makes them. -/
theorem workingDirectory_in_root {users : DatabaseHandler}
    (huuid : ∀ row ∈ users.db.users, Named row.uuid) {w : SessionState}
    (h : Reachable (sessionSystem users) w) {c : ConnId} {session : Session}
    (hlive : w.live c = some session) (hid : session.id ≠ []) :
    ∃ names, (∀ n ∈ names, Named n) ∧
      session.currentDir = ascii "./tmp/" ++ session.id ++ slashed names :=
  (rooted_of_reachable huuid h c session hlive hid).2

theorem reachable_rootSession :
    Reachable (sessionSystem exampleUsers)
      ((SessionState.initial.set 0 (some (.accepted 5)) .initial).set 0 (some rootSession)
        adminConnected) := by
  have login := exists_login_run exampleUsers decode_rootLogin
  simp only [afterLogin_root] at login
  exact ⟨_, _, rfl, login⟩

theorem namedUuids_exampleUsers : NamedUuids exampleUsers := by
  unfold NamedUuids
  decide

theorem workingDirectory_in_root_example :
    ∃ names, (∀ n ∈ names, Named n) ∧
      rootSession.currentDir = ascii "./tmp/" ++ rootSession.id ++ slashed names :=
  workingDirectory_in_root namedUuids_exampleUsers reachable_rootSession
    (SessionState.set_live_self ..) (by decide)

end ConcurrentTcp
