import ConcurrentTcp.Base.Literals
import ConcurrentTcp.Base.Transition
import ConcurrentTcp.Db.Handler
import ConcurrentTcp.Db.Maintenance

/-!
The accounts that the maintenance tool creates.

SQLite is a relation between a text, the table before, whether `SQLITE_OK` is returned and
the table after. `RunsInserts` is what is used of it: how it runs one INSERT whose values
are literals. `usersSystem` is a sequence of runs of `add_user` over the table.
-/

namespace ConcurrentTcp

open Literals Transition

/-! ### SQLite -/

/-- `'`. -/
def quote : UInt8 := 39

/-- A value as a literal. -/
def literal (s : Str) : Str := ascii "'" ++ escape quote s ++ ascii "'"

def insertHead (isAdmin : Bool) : Str :=
  if isAdmin then ascii "INSERT INTO USERS (UUID, USERNAME, PASSWORD, ROLE) VALUES ("
  else ascii "INSERT INTO USERS (UUID, USERNAME, PASSWORD) VALUES ("

def insertEnd (isAdmin : Bool) : Str := if isAdmin then ascii ", 1);" else ascii ");"

/-- An INSERT of the values. -/
def insertText (isAdmin : Bool) (uuid username password : Str) : Str :=
  insertHead isAdmin ++ literal uuid ++ ascii ", " ++ literal username ++ ascii ", " ++
    literal password ++ insertEnd isAdmin

/-- The text before the second value, with the quote that opens it. -/
def beforeName (isAdmin : Bool) (uuid : Str) : Str :=
  insertHead isAdmin ++ literal uuid ++ ascii ", '"

/-- The row of such an INSERT; ROLE is 0 by default. -/
def insertedRow (isAdmin : Bool) (uuid username password : Str) : UserRow :=
  { uuid, username, password, role := if isAdmin then 1 else 0 }

/-- `sqlite3_exec`. -/
abbrev SqliteExec : Type := Str → Database → Bool → Database → Prop

/-- An INSERT that succeeds appends its row, whose UUID is new; and a text that ends inside
a literal is an error. -/
structure RunsInserts (exec : SqliteExec) : Prop where
  insert : ∀ isAdmin uuid username password db db',
    0 ∉ insertText isAdmin uuid username password →
    exec (insertText isAdmin uuid username password) db true db' →
      (∀ row ∈ db.users, row.uuid ≠ uuid) ∧
        db'.users = db.users ++ [insertedRow isAdmin uuid username password]
  unterminated : ∀ isAdmin uuid username db db', 0 ∉ beforeName isAdmin uuid → 0 ∉ username →
    ¬ exec (beforeName isAdmin uuid ++ escape quote username) db true db'

/-! ### Accounts -/

/-- A run of `add_user`, and whether it says `User added successfully`. -/
structure AddUserLabel where
  typed : AddUser
  succeeded : Bool

/-- The table that `create_users_table` makes. -/
def Database.empty : Database where
  users := []
  uuid_unique := .nil

/-- `add_user` on the table. -/
def usersSystem (exec : SqliteExec) (sha512 : Str → List UInt8) : System Database AddUserLabel where
  init := fun db => db = .empty
  step := fun db l db' => exec (l.typed.sql sha512) db l.succeeded db'

/-- Exactly one row was added, and the server takes it for what was typed. -/
structure AccountCreated (sha512 : Str → List UInt8) (before : Database) (a : AddUser)
    (after : Database) : Prop where
  row : ∃ row, after.users = before.users ++ [row] ∧ row.username = a.username
  login : (DatabaseHandler.mk after (hashPassword sha512)).login a.username a.password = true
  getID : (DatabaseHandler.mk after (hashPassword sha512)).getID a.username = a.uuid
  isAdmin : (DatabaseHandler.mk after (hashPassword sha512)).isAdmin a.username = a.isAdmin

section Texts

variable {isAdmin : Bool} {uuid username password s : Str}

theorem unquoted_iff : Unquoted s ↔ 0 ∉ s ∧ quote ∉ s := by
  constructor
  · intro h
    exact ⟨fun hmem => (h 0 hmem).1 rfl, fun hmem => (h quote hmem).2 rfl⟩
  · rintro ⟨hzero, hquote⟩ c hc
    exact ⟨ne_of_mem_of_not_mem hc hzero, ne_of_mem_of_not_mem hc hquote⟩

theorem literal_of_unquoted (h : Unquoted s) : literal s = ascii "'" ++ s ++ ascii "'" := by
  rw [literal, escape_of_notMem (unquoted_iff.mp h).2]

/-- The text of `add_user` for a name that reads as one literal. -/
theorem addUserSql_escape (huuid : Unquoted uuid) (hpassword : Unquoted password) :
    addUserSql uuid (escape quote username) password isAdmin =
      insertText isAdmin uuid username password := by
  have hopen : ascii "', '" = ascii "'" ++ ascii ", " ++ ascii "'" := by decide
  unfold insertText
  rw [literal_of_unquoted huuid, literal_of_unquoted hpassword, literal]
  cases isAdmin with
  | true =>
      have hhead : ascii "INSERT INTO USERS (UUID, USERNAME, PASSWORD, ROLE) VALUES ('" =
          insertHead true ++ ascii "'" := by decide
      have hend : ascii "', 1);" = ascii "'" ++ insertEnd true := by decide
      simp only [addUserSql, if_true, hopen, hhead, hend, List.append_assoc]
  | false =>
      have hhead : ascii "INSERT INTO USERS (UUID, USERNAME, PASSWORD) VALUES ('" =
          insertHead false ++ ascii "'" := by decide
      have hend : ascii "');" = ascii "'" ++ insertEnd false := by decide
      simp only [addUserSql, Bool.false_eq_true, if_false, hopen, hhead, hend, List.append_assoc]

theorem zero_mem_literal : 0 ∈ literal s ↔ 0 ∈ s := by
  have hquote : 0 ∉ ascii "'" := by decide
  simp [literal, hquote, mem_escape]

theorem zero_notMem_beforeName (huuid : 0 ∉ uuid) : 0 ∉ beforeName isAdmin uuid := by
  have hhead : 0 ∉ insertHead isAdmin := by cases isAdmin <;> decide
  have hcomma : 0 ∉ ascii ", '" := by decide
  simp [beforeName, zero_mem_literal, huuid, hhead, hcomma]

theorem insertText_eq : insertText isAdmin uuid username password =
    beforeName isAdmin uuid ++ (escape quote username ++
      (ascii "', " ++ literal password ++ insertEnd isAdmin)) := by
  have hopen : ascii ", '" = ascii ", " ++ ascii "'" := by decide
  have hclose : ascii "', " = ascii "'" ++ ascii ", " := by decide
  simp only [insertText, beforeName, literal, hopen, hclose, List.append_assoc]

theorem zero_notMem_insertText (huuid : 0 ∉ uuid) (husername : 0 ∉ username)
    (hpassword : 0 ∉ password) : 0 ∉ insertText isAdmin uuid username password := by
  have hclose : 0 ∉ ascii "', " := by decide
  have hend : 0 ∉ insertEnd isAdmin := by cases isAdmin <;> decide
  have hbefore : 0 ∉ beforeName isAdmin uuid := zero_notMem_beforeName huuid
  simp [insertText_eq, hbefore, mem_escape, husername, hclose, zero_mem_literal, hpassword, hend]

end Texts

section Accounts

variable {exec : SqliteExec} {sha512 : Str → List UInt8} {a : AddUser} {v : Str}
  {db db' : Database} {succeeded : Bool}

/-- A name without NUL gives one INSERT. -/
theorem sql_of_zero_notMem (hname : a.username = escape quote v) (hzero : 0 ∉ v) :
    a.sql sha512 = insertText a.isAdmin a.uuid v (hashPassword sha512 a.password) ∧
      0 ∉ insertText a.isAdmin a.uuid v (hashPassword sha512 a.password) := by
  have huuid : Unquoted a.uuid := unquoted_generateUuid _ _
  have hpassword := unquoted_hashPassword sha512 a.password
  have hno : 0 ∉ insertText a.isAdmin a.uuid v (hashPassword sha512 a.password) :=
    zero_notMem_insertText (unquoted_iff.mp huuid).1 hzero (unquoted_iff.mp hpassword).1
  refine ⟨?_, hno⟩
  rw [AddUser.sql, hname, addUserSql_escape huuid hpassword]
  refine List.takeWhile_eq_self_iff.mpr fun c hc => ?_
  simpa using ne_of_mem_of_not_mem hc hno

/-- A name with NUL gives a text that ends inside its literal. -/
theorem sql_of_zero_mem (hname : a.username = escape quote v) (hzero : 0 ∈ v) :
    a.sql sha512 = beforeName a.isAdmin a.uuid ++ escape quote (v.takeWhile (· ≠ 0)) := by
  have huuid : Unquoted a.uuid := unquoted_generateUuid _ _
  have hno : 0 ∉ beforeName a.isAdmin a.uuid := zero_notMem_beforeName (unquoted_iff.mp huuid).1
  rw [AddUser.sql, hname, addUserSql_escape huuid (unquoted_hashPassword sha512 a.password),
    insertText_eq, List.takeWhile_append_of_pos fun c hc => by
      simpa using ne_of_mem_of_not_mem hc hno]
  have hends : ((escape quote v).takeWhile (· ≠ 0)).length ≠ (escape quote v).length := by
    intro hlength
    have heq := (List.takeWhile_prefix _).eq_of_length hlength
    have hall := List.takeWhile_eq_self_iff.mp heq 0 (mem_escape.mpr hzero)
    simp at hall
  rw [List.takeWhile_append, if_neg hends, takeWhile_escape (by decide)]

/-- A run of `add_user` that succeeds, for a name that reads as one literal. -/
theorem insert_of_succeeded (sqlite : RunsInserts exec) (hname : a.username = escape quote v)
    (succeeds : exec (a.sql sha512) db true db') :
    (∀ row ∈ db.users, row.uuid ≠ a.uuid) ∧ db'.users =
      db.users ++ [insertedRow a.isAdmin a.uuid v (hashPassword sha512 a.password)] := by
  by_cases hzero : 0 ∈ v
  · have hcut : 0 ∉ v.takeWhile (· ≠ 0) := by
      intro hmem
      simpa using List.mem_takeWhile_imp hmem
    rw [sql_of_zero_mem hname hzero] at succeeds
    have huuid : 0 ∉ a.uuid := (unquoted_iff.mp (unquoted_generateUuid _ _)).1
    exact absurd succeeds (sqlite.unterminated _ _ _ _ _ (zero_notMem_beforeName huuid) hcut)
  · obtain ⟨hsql, hno⟩ := @sql_of_zero_notMem sha512 a v hname hzero
    rw [hsql] at succeeds
    exact sqlite.insert _ _ _ _ _ _ hno succeeds

/-- The first row of a name that had none. -/
theorem selectUser_append {h : DatabaseHandler} {row : UserRow} {username : Str}
    (husers : h.db.users = db.users ++ [row]) (hname : row.username = username)
    (hnew : ∀ old ∈ db.users, old.username ≠ username) : h.selectUser username = some row := by
  have hnone : db.users.find? (fun old => old.username = username) = none := by
    simpa using hnew
  simp [DatabaseHandler.selectUser, husers, hnone, hname]

/-- A row of a name that is there already is not found. -/
theorem selectUser_append_of_mem {h : DatabaseHandler} {row old : UserRow} {username : Str}
    (husers : h.db.users = db.users ++ [row]) (hold : old ∈ db.users)
    (hname : old.username = username) :
    ∃ first ∈ db.users, h.selectUser username = some first := by
  have hsome : (db.users.find? fun row => row.username = username).isSome := by
    simpa using ⟨old, hold, hname⟩
  obtain ⟨first, hfirst⟩ := Option.isSome_iff_exists.mp hsome
  refine ⟨first, List.mem_of_find?_eq_some hfirst, ?_⟩
  simp [DatabaseHandler.selectUser, husers, hfirst]

/-- The account of a new name. -/
theorem accountCreated_of_new (hsha512 : sha512 a.password ≠ [])
    (husers : db'.users = db.users ++
      [insertedRow a.isAdmin a.uuid a.username (hashPassword sha512 a.password)])
    (hnew : ∀ row ∈ db.users, row.username ≠ a.username) :
    AccountCreated sha512 db a db' := by
  let h : DatabaseHandler := ⟨db', hashPassword sha512⟩
  have hselect : h.selectUser a.username = some _ := selectUser_append husers rfl hnew
  refine ⟨⟨_, husers, rfl⟩, ?_, ?_, ?_⟩
  · have hpassword := hashPassword_ne_nil hsha512
    simp [DatabaseHandler.login, DatabaseHandler.getHashedPassword, h, hselect, insertedRow,
      hpassword]
  · simp [DatabaseHandler.getID, h, hselect, insertedRow]
  · cases hadmin : a.isAdmin <;>
      simp [DatabaseHandler.isAdmin, h, hselect, insertedRow, hadmin]

/-- A row that is found first has another UUID than the new one. -/
theorem not_accountCreated_of_mem {old : UserRow} {row : UserRow}
    (huuid : ∀ row ∈ db.users, row.uuid ≠ a.uuid) (husers : db'.users = db.users ++ [row])
    (hold : old ∈ db.users) (hname : old.username = a.username) :
    ¬ AccountCreated sha512 db a db' := by
  intro created
  let h : DatabaseHandler := ⟨db', hashPassword sha512⟩
  obtain ⟨first, hfirst, hselect⟩ :=
    selectUser_append_of_mem (h := h) husers hold hname
  have hid : h.getID a.username = a.uuid := created.getID
  rw [DatabaseHandler.getID, hselect] at hid
  exact huuid first hfirst hid

theorem accountCreated_iff (sqlite : RunsInserts exec) (hsha512 : sha512 a.password ≠ [])
    (hname : a.username = escape quote v) (succeeds : exec (a.sql sha512) db true db') :
    AccountCreated sha512 db a db' ↔
      quote ∉ a.username ∧ ∀ row ∈ db.users, row.username ≠ a.username := by
  obtain ⟨huuid, husers⟩ := insert_of_succeeded sqlite hname succeeds
  constructor
  · intro created
    obtain ⟨row, hrow, hrowname⟩ := created.row
    have hadded : insertedRow a.isAdmin a.uuid v (hashPassword sha512 a.password) = row := by
      simpa using husers.symm.trans hrow
    have hliteral : v = escape quote v :=
      (congrArg UserRow.username hadded).trans (hrowname.trans hname)
    refine ⟨?_, fun old hold hsame => ?_⟩
    · rw [hname, ← hliteral]
      exact escape_eq_self_iff.mp hliteral.symm
    · exact not_accountCreated_of_mem huuid husers hold hsame created
  · rintro ⟨hquote, hnew⟩
    have hliteral : a.username = v := by
      rw [hname] at hquote ⊢
      exact escape_of_notMem (mt mem_escape.mpr hquote)
    rw [← hliteral] at husers
    exact accountCreated_of_new hsha512 husers hnew

/-- In every sequence of runs of `add_user` on a new table, a run that succeeds for a name
that reads as one literal creates its account exactly when the name has no quote and is
not in the table. -/
theorem account_created_iff (sqlite : RunsInserts exec)
    (hsha512 : ∀ input, (sha512 input).length = 64) {moves : List (Move Database AddUserLabel)}
    (run : Run (usersSystem exec sha512) .empty moves db) :
    ∀ m ∈ moves, ∀ v, m.label.typed.username = escape quote v → m.label.succeeded = true →
      (AccountCreated sha512 m.pre m.label.typed m.post ↔
        quote ∉ m.label.typed.username ∧
          ∀ row ∈ m.pre.users, row.username ≠ m.label.typed.username) := by
  intro m hm v hname hsucceeded
  have step : exec (m.label.typed.sql sha512) m.pre m.label.succeeded m.post := run.steps m hm
  have hdigest : sha512 m.label.typed.password ≠ [] :=
    List.ne_nil_of_length_pos (by rw [hsha512]; omega)
  rw [hsucceeded] at step
  exact accountCreated_iff sqlite hdigest hname step

end Accounts

/-! ### An account that is made twice -/

section Example

variable {isAdmin isAdmin' : Bool}
  {uuid uuid' username username' password password' rest rest' : Str}

theorem append_ne_append {front front' : Str} (apart : ¬ front <+: front')
    (hlength : front.length ≤ front'.length) : front ++ rest ≠ front' ++ rest' := fun h =>
  apart (List.prefix_of_prefix_length_le ⟨rest, h⟩ ⟨rest', rfl⟩ hlength)

theorem insertHead_append_inj (h : insertHead isAdmin ++ rest = insertHead isAdmin' ++ rest') :
    isAdmin = isAdmin' ∧ rest = rest' := by
  have apart : ¬ insertHead false <+: insertHead true := by decide
  have hlength : (insertHead false).length ≤ (insertHead true).length := by decide
  cases isAdmin with
  | true =>
      cases isAdmin' with
      | true => exact ⟨rfl, List.append_cancel_left h⟩
      | false => exact absurd h.symm (append_ne_append apart hlength)
  | false =>
      cases isAdmin' with
      | true => exact absurd h (append_ne_append apart hlength)
      | false => exact ⟨rfl, List.append_cancel_left h⟩

theorem literal_append (s rest : Str) :
    literal s ++ rest = quote :: (escape quote s ++ quote :: rest) := by
  have hquote : ascii "'" = [quote] := by decide
  simp [literal, hquote]

theorem literal_append_inj {s s' : Str} (hrest : rest.head? ≠ some quote)
    (hrest' : rest'.head? ≠ some quote) (h : literal s ++ rest = literal s' ++ rest') :
    s = s' ∧ rest = rest' := by
  rw [literal_append, literal_append] at h
  exact escape_append_inj hrest hrest' (List.cons.inj h).2

theorem head_comma_ne : (ascii ", " ++ rest).head? ≠ some quote := by
  have hcomma : ascii ", " = [44, 32] := by decide
  simp [hcomma, quote]

theorem head_insertEnd_ne : (insertEnd isAdmin).head? ≠ some quote := by
  cases isAdmin <;> decide

/-- A text is an INSERT of literals in one way only. -/
theorem insertText_inj
    (h : insertText isAdmin uuid username password =
      insertText isAdmin' uuid' username' password') :
    isAdmin = isAdmin' ∧ uuid = uuid' ∧ username = username' ∧ password = password' := by
  simp only [insertText, List.append_assoc] at h
  obtain ⟨hadmin, h⟩ := insertHead_append_inj h
  obtain ⟨huuid, h⟩ := literal_append_inj head_comma_ne head_comma_ne h
  obtain ⟨hname, h⟩ := literal_append_inj head_comma_ne head_comma_ne (List.append_cancel_left h)
  obtain ⟨hpassword, -⟩ :=
    literal_append_inj head_insertEnd_ne head_insertEnd_ne (List.append_cancel_left h)
  exact ⟨hadmin, huuid, hname, hpassword⟩

theorem insertText_ne_unterminated :
    beforeName isAdmin uuid ++ escape quote username ≠
      insertText isAdmin' uuid' username' password' := by
  intro h
  have hopen : ascii ", '" = ascii ", " ++ [quote] := by decide
  simp only [insertText, beforeName, hopen, List.append_assoc] at h
  obtain ⟨-, h⟩ := insertHead_append_inj h
  obtain ⟨-, h⟩ := literal_append_inj head_comma_ne head_comma_ne h
  have hname := List.append_cancel_left h
  rw [literal_append] at hname
  exact escape_ne_append head_comma_ne (List.cons.inj hname).2

/-- A SQLite that runs INSERTs of literals, and refuses all other texts. -/
inductive InsertsOnly : SqliteExec where
  | inserted {db db' : Database} (isAdmin : Bool) (uuid username password : Str) :
      (∀ row ∈ db.users, row.uuid ≠ uuid) →
      db'.users = db.users ++ [insertedRow isAdmin uuid username password] →
      InsertsOnly (insertText isAdmin uuid username password) db true db'
  | refused (text : Str) (db : Database) : InsertsOnly text db false db

theorem runsInserts_insertsOnly : RunsInserts InsertsOnly where
  insert := by
    intro isAdmin uuid username password db db' _ exec
    generalize htext : insertText isAdmin uuid username password = text at exec
    cases exec with
    | inserted _ _ _ _ huuid husers =>
        obtain ⟨rfl, rfl, rfl, rfl⟩ := insertText_inj htext
        exact ⟨huuid, husers⟩
  unterminated := by
    intro isAdmin uuid username db db' _ _ exec
    generalize htext : beforeName isAdmin uuid ++ escape quote username = text at exec
    cases exec with
    | inserted => exact insertText_ne_unterminated htext

/-- The digest of the password `a`; others are left out. -/
def shortDigest (input : Str) : List UInt8 :=
  if input = ascii "a" then
    [31, 64, 252, 146, 218, 36, 22, 148, 117, 9, 121, 238, 108, 245, 130, 242,
      213, 215, 210, 142, 24, 51, 93, 224, 90, 188, 84, 208, 86, 14, 15, 83,
      2, 134, 12, 101, 43, 240, 141, 86, 2, 82, 170, 94, 116, 33, 5, 70,
      243, 105, 251, 187, 206, 140, 18, 207, 199, 149, 123, 38, 82, 254, 154, 117]
  else List.replicate 64 0

theorem length_shortDigest (input : Str) : (shortDigest input).length = 64 := by
  unfold shortDigest
  split <;> rfl

/-- The account `alice` with the password `a`, whose UUID has one digit throughout. -/
def addAlice (digit : Fin 16) (choice : UInt8) : AddUser :=
  { username := ascii "alice", password := ascii "a", choice, dis := fun _ => digit, dis2 := 0 }

def aliceRow (digit : Fin 16) (choice : UInt8) : UserRow :=
  insertedRow (addAlice digit choice).isAdmin (addAlice digit choice).uuid (ascii "alice")
    (hashPassword shortDigest (ascii "a"))

def oneAlice : Database where
  users := [aliceRow (Fin.last 15) 110]
  uuid_unique := List.nodup_singleton _

def twoAlices : Database where
  users := [aliceRow (Fin.last 15) 110, aliceRow (Fin.last 14).castSucc 121]
  uuid_unique := by decide +kernel

theorem step_addAlice {before after : Database} {digit : Fin 16} {choice : UInt8}
    (huuid : ∀ row ∈ before.users, row.uuid ≠ (addAlice digit choice).uuid)
    (husers : after.users = before.users ++ [aliceRow digit choice]) :
    (usersSystem InsertsOnly shortDigest).step before ⟨addAlice digit choice, true⟩ after := by
  have hname : ascii "alice" = escape quote (ascii "alice") := by decide
  have hsql := (@sql_of_zero_notMem shortDigest (addAlice digit choice) _ hname (by decide)).1
  change InsertsOnly ((addAlice digit choice).sql shortDigest) before true after
  rw [hsql]
  exact .inserted _ _ _ _ huuid husers

theorem step_oneAlice :
    (usersSystem InsertsOnly shortDigest).step .empty ⟨addAlice (Fin.last 15) 110, true⟩ oneAlice :=
  step_addAlice (fun _ hrow => absurd hrow List.not_mem_nil) rfl

/-- The first account of a name is created. -/
theorem account_created_alice :
    AccountCreated shortDigest .empty (addAlice (Fin.last 15) 110) oneAlice :=
  (account_created_iff runsInserts_insertsOnly length_shortDigest (.one step_oneAlice) _
    List.mem_cons_self (ascii "alice") (by decide) rfl).mpr ⟨by decide, by simp [Database.empty]⟩

/-- The name is there already: the run succeeds, and the server keeps to the first row. -/
theorem not_created_second_alice :
    ∃ moves, Run (usersSystem InsertsOnly shortDigest) .empty moves twoAlices ∧
      ∃ m ∈ moves, m.label.succeeded = true ∧
        ¬ AccountCreated shortDigest m.pre m.label.typed m.post := by
  have again : (usersSystem InsertsOnly shortDigest).step oneAlice
      ⟨addAlice (Fin.last 14).castSucc 121, true⟩ twoAlices :=
    step_addAlice (by decide +kernel) rfl
  refine ⟨_, .cons step_oneAlice (.one again), _, List.mem_cons_of_mem _ List.mem_cons_self, rfl,
    fun created => ?_⟩
  have hid : (DatabaseHandler.mk twoAlices (hashPassword shortDigest)).getID (ascii "alice") =
      (addAlice (Fin.last 14).castSucc 121).uuid := created.getID
  revert hid
  decide +kernel

end Example

end ConcurrentTcp
