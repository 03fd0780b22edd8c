import ConcurrentTcp.Db.Accounts
import ConcurrentTcp.Server.LoginHistory

/-!
Who can be logged in.

The server reads the table that the maintenance tool has filled. `users_of_run` says what is in
it after any runs of `add_user`, `login_iff_account` which credentials the server takes, and
`logins_of_accounts` what stands behind the id of a session.
-/

namespace ConcurrentTcp

open Interaction Literals Transition

/-! ### Accounts -/

/-- What is used of a statement that fails: it leaves the table as it was. -/
structure KeepsOnFailure (exec : SqliteExec) : Prop where
  insert : ∀ isAdmin uuid username password db db',
    0 ∉ insertText isAdmin uuid username password →
    exec (insertText isAdmin uuid username password) db false db' → db'.users = db.users
  unterminated : ∀ isAdmin uuid username db db', 0 ∉ beforeName isAdmin uuid → 0 ∉ username →
    exec (beforeName isAdmin uuid ++ escape quote username) db false db' → db'.users = db.users

/-- The runs of `add_user` that succeeded. -/
def createdAccounts (moves : List (Move Database AddUserLabel)) : List AddUser :=
  moves.filterMap fun m => if m.label.succeeded then some m.label.typed else none

/-- The account that the server finds under a name. -/
def firstAccount (moves : List (Move Database AddUserLabel)) (username : Str) : Option AddUser :=
  (createdAccounts moves).find? fun a => a.username = username

def AddUser.row (sha512 : Str → List UInt8) (a : AddUser) : UserRow :=
  insertedRow a.isAdmin a.uuid a.username (hashPassword sha512 a.password)

section Table

variable {exec : SqliteExec} {sha512 : Str → List UInt8} {a : AddUser} {db db' : Database}
  {moves : List (Move Database AddUserLabel)}

/-- A run of `add_user` that fails. -/
theorem users_of_failed (keeps : KeepsOnFailure exec) (hquote : quote ∉ a.username)
    (fails : exec (a.sql sha512) db false db') : db'.users = db.users := by
  have hname : a.username = escape quote a.username := (escape_of_notMem hquote).symm
  by_cases hzero : 0 ∈ a.username
  · have hcut : 0 ∉ a.username.takeWhile (· ≠ 0) := by
      intro hmem
      simpa using List.mem_takeWhile_imp hmem
    rw [sql_of_zero_mem hname hzero] at fails
    have huuid : 0 ∉ a.uuid := (unquoted_iff.mp (unquoted_generateUuid _ _)).1
    exact keeps.unterminated _ _ _ _ _ (zero_notMem_beforeName huuid) hcut fails
  · obtain ⟨hsql, hno⟩ := @sql_of_zero_notMem sha512 a _ hname hzero
    rw [hsql] at fails
    exact keeps.insert _ _ _ _ _ _ hno fails

theorem createdAccounts_append (first second : List (Move Database AddUserLabel)) :
    createdAccounts (first ++ second) = createdAccounts first ++ createdAccounts second :=
  List.filterMap_append

/-- The table has the accounts that were created, in order. -/
theorem users_of_run (sqlite : RunsInserts exec) (keeps : KeepsOnFailure exec)
    (run : Run (usersSystem exec sha512) .empty moves db)
    (hquote : ∀ m ∈ moves, quote ∉ m.label.typed.username) :
    db.users = (createdAccounts moves).map (AddUser.row sha512) := by
  suffices h : (∀ m ∈ moves, quote ∉ m.label.typed.username) →
      db.users = (createdAccounts moves).map (AddUser.row sha512) from h hquote
  clear hquote
  apply run.history (P := fun moves db => (∀ m ∈ moves, quote ∉ m.label.typed.username) →
    db.users = (createdAccounts moves).map (AddUser.row sha512)) _ fun _ => rfl
  rintro past db ⟨a, succeeded⟩ db' now step hquote
  obtain ⟨earlier, here⟩ := List.forall_mem_append.mp hquote
  have hname : quote ∉ a.username := here _ List.mem_cons_self
  rw [createdAccounts_append, List.map_append, ← now earlier]
  cases succeeded with
  | true => exact (insert_of_succeeded sqlite (escape_of_notMem hname).symm step).2
  | false => exact (users_of_failed keeps hname step).trans (List.append_nil _).symm

end Table

/-! ### Credentials -/

section Credentials

variable {sha512 : Str → List UInt8} {db : Database} {moves : List (Move Database AddUserLabel)}

theorem selectUser_firstAccount
    (husers : db.users = (createdAccounts moves).map (AddUser.row sha512)) (username : Str) :
    (DatabaseHandler.mk db (hashPassword sha512)).selectUser username =
      (firstAccount moves username).map (AddUser.row sha512) := by
  unfold DatabaseHandler.selectUser firstAccount
  rw [husers, List.find?_map]
  rfl

/-- The server takes a name with the password of the first account under it, or one with the
same digest. -/
theorem login_iff_account (hsha512 : ∀ input, (sha512 input).length = 64)
    (husers : db.users = (createdAccounts moves).map (AddUser.row sha512))
    (username password : Str) :
    (DatabaseHandler.mk db (hashPassword sha512)).login username password = true ↔
      ∃ a, firstAccount moves username = some a ∧
        hashPassword sha512 password = hashPassword sha512 a.password := by
  unfold DatabaseHandler.login DatabaseHandler.getHashedPassword
  rw [selectUser_firstAccount husers]
  cases firstAccount moves username with
  | none => simp
  | some a =>
      have hdigest : sha512 a.password ≠ [] :=
        List.ne_nil_of_length_pos (by rw [hsha512]; omega)
      have hpassword := hashPassword_ne_nil hdigest
      simp only [Option.map_some, AddUser.row, insertedRow, Bool.and_eq_true, Bool.not_eq_true',
        List.isEmpty_eq_false_iff, hpassword, ne_eq, not_false_eq_true, true_and,
        Option.some.injEq, exists_eq_left']
      exact decide_eq_true_iff

theorem isAdmin_iff_account (husers : db.users = (createdAccounts moves).map (AddUser.row sha512))
    (username : Str) :
    (DatabaseHandler.mk db (hashPassword sha512)).isAdmin username = true ↔
      ∃ a, firstAccount moves username = some a ∧ a.isAdmin = true := by
  unfold DatabaseHandler.isAdmin
  rw [selectUser_firstAccount husers]
  cases firstAccount moves username with
  | none => simp
  | some a => cases hadmin : a.isAdmin <;> simp [AddUser.row, insertedRow, hadmin]

theorem getID_firstAccount (husers : db.users = (createdAccounts moves).map (AddUser.row sha512))
    {username : Str} {a : AddUser} (h : firstAccount moves username = some a) :
    (DatabaseHandler.mk db (hashPassword sha512)).getID username = a.uuid := by
  rw [DatabaseHandler.getID, selectUser_firstAccount husers, h]
  rfl

end Credentials

/-! ### Sessions -/

/-- What the server takes for the accounts of these runs of `add_user`. -/
structure TakesAccounts (users : DatabaseHandler) (accounts : List (Move Database AddUserLabel)) :
    Prop where
  login : ∀ username password, users.login username password = true ↔
    ∃ a, firstAccount accounts username = some a ∧
      users.hashPassword password = users.hashPassword a.password
  getID : ∀ username a, firstAccount accounts username = some a → users.getID username = a.uuid
  isAdmin : ∀ username, users.isAdmin username = true ↔
    ∃ a, firstAccount accounts username = some a ∧ a.isAdmin = true

/-- The latest login of `c` gave the name and the password of this account, and stands. -/
def LoggedInAs (users : DatabaseHandler) (accounts : List (Move Database AddUserLabel)) (c : ConnId)
    (moves : List (Move RequestState RequestLabel)) (a : AddUser) : Prop :=
  ∃ before m after p, moves = before ++ m :: after ∧ AcceptedLogin users c p m.label ∧
    firstAccount accounts p.username = some a ∧
    users.hashPassword p.password = users.hashPassword a.password ∧
    ∀ later ∈ after, ¬ EndsLogin c later.label ∧ ∀ q, ¬ AcceptedLogin users c q later.label

theorem AcceptedLogin.accepted {users : DatabaseHandler} {c : ConnId} {p : PacketLogin}
    {l : RequestLabel} (h : AcceptedLogin users c p l) :
    users.login p.username p.password = true := by
  unfold AcceptedLogin at h
  split at h
  · exact h.2.2.1
  · exact h.elim

/-- After any runs of `add_user` with names without quotes, and any run of the server on their
table: the accounts that were created first under their names are those that can be logged in
to, and a session has an id only as one of them. Of SQLite it is assumed that an INSERT does
what it says and that a statement that fails leaves the table, and of the digest its length. -/
theorem logins_of_accounts {exec : SqliteExec} {sha512 : Str → List UInt8} {db : Database}
    {accounts : List (Move Database AddUserLabel)} {moves : List (Move RequestState RequestLabel)}
    {w : RequestState} (sqlite : RunsInserts exec) (keeps : KeepsOnFailure exec)
    (hsha512 : ∀ input, (sha512 input).length = 64)
    (made : Run (usersSystem exec sha512) .empty accounts db)
    (hquote : ∀ m ∈ accounts, quote ∉ m.label.typed.username)
    (run : Run (requestSystem ⟨db, hashPassword sha512⟩) .initial moves w)
    (running : w.terminated = false) :
    TakesAccounts ⟨db, hashPassword sha512⟩ accounts ∧
      ∀ c session, w.live c = some session → session.id ≠ [] →
        ∃ a ∈ createdAccounts accounts, session.id = a.uuid ∧
          LoggedInAs ⟨db, hashPassword sha512⟩ accounts c moves a := by
  have husers := users_of_run sqlite keeps made hquote
  have credentials := login_iff_account hsha512 husers
  refine ⟨⟨credentials, fun _ _ => getID_firstAccount husers, isAdmin_iff_account husers⟩, ?_⟩
  intro c session hlive hid
  obtain ⟨before, m, after, p, hmoves, accepted, hgiven, since⟩ :=
    idsFromLogins_of_run run running c session hlive hid
  obtain ⟨a, hfirst, hpassword⟩ := (credentials _ _).mp accepted.accepted
  refine ⟨a, List.mem_of_find?_eq_some hfirst, ?_, before, m, after, p, hmoves, accepted, hfirst,
    hpassword, since⟩
  rw [← hgiven, getID_firstAccount husers hfirst]

/-! ### A login of alice -/

theorem InsertsOnly.keeps {text : Str} {db db' : Database} (h : InsertsOnly text db false db') :
    db'.users = db.users := by
  cases h
  rfl

theorem keepsOnFailure_insertsOnly : KeepsOnFailure InsertsOnly where
  insert _ _ _ _ _ _ _ failed := failed.keeps
  unterminated _ _ _ _ _ _ _ failed := failed.keeps

theorem exists_aliceLogin :
    ∃ moves w session,
      Run (requestSystem ⟨oneAlice, hashPassword shortDigest⟩) .initial moves w ∧
        w.terminated = false ∧ w.live 0 = some session ∧ session.id ≠ [] := by
  have hdecode : PacketLogin.decode (loginPacket 0 (ascii "alice") (ascii "a")).buffer =
      some ⟨ascii "alice", ascii "a"⟩ := by decide
  obtain ⟨events, t, login, hsession, -⟩ := exec_reqLogin ⟨oneAlice, hashPassword shortDigest⟩
    hdecode ⟨.accepted 5, .initial, Buffer.zero⟩
  have accepted : RequestStep ⟨oneAlice, hashPassword shortDigest⟩ .initial (.accept 0 5)
      (RequestState.initial.next 0 (.ok (some (.accepted 5), .initial))) := .accept rfl
  have loggedIn : RequestStep ⟨oneAlice, hashPassword shortDigest⟩
      (RequestState.initial.next 0 (.ok (some (.accepted 5), .initial)))
      (.packet 0 .reqLogin Buffer.zero (loginPacket 0 (ascii "alice") (ascii "a")) Buffer.zero
        events (.ok t)) _ := .packet 0 (RequestState.live_next_self ..) login (by simp)
  refine ⟨_, _, t.session, .cons ⟨rfl, accepted⟩ (.cons ⟨rfl, loggedIn⟩ (.nil _)), rfl,
    RequestState.live_next_self .., ?_⟩
  rw [hsession]
  decide +kernel

theorem logins_of_accounts_alice :
    ∃ moves w session,
      Run (requestSystem ⟨oneAlice, hashPassword shortDigest⟩) .initial moves w ∧
        w.live 0 = some session ∧ session.id = (addAlice (Fin.last 15) 110).uuid := by
  obtain ⟨moves, w, session, run, running, hlive, hid⟩ := exists_aliceLogin
  obtain ⟨-, sessions⟩ := logins_of_accounts runsInserts_insertsOnly keepsOnFailure_insertsOnly
    length_shortDigest (.one step_oneAlice) (by decide) run running
  obtain ⟨a, ha, hgiven, -⟩ := sessions 0 session hlive hid
  cases List.mem_singleton.mp ha
  exact ⟨moves, w, session, run, hlive, hgiven⟩

end ConcurrentTcp
