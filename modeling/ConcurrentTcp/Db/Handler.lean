import ConcurrentTcp.Common.Bytes
import Mathlib.Data.List.Nodup

/-!
The USERS table and `DatabaseHandler` (`db/db_handler.hpp`).

The table is what `create_users_table` declares: the UUID is the primary key, a
user name may occur more than once. Each query of the handler takes the first
row with the user name. The password digest (SHA-512 in hexadecimal, computed
by OpenSSL) is a parameter.
-/

namespace ConcurrentTcp

/-- A row of USERS. -/
structure UserRow where
  uuid : Str
  username : Str
  password : Str
  role : Int
deriving DecidableEq, Repr

/-- The USERS table. -/
structure Database where
  users : List UserRow
  uuid_unique : (users.map (·.uuid)).Nodup

/-- `DatabaseHandler`: the table and the digest its `hashPassword` computes. -/
structure DatabaseHandler where
  db : Database
  hashPassword : Str → Str

namespace DatabaseHandler

/-- `SELECT ... FROM USERS WHERE USERNAME = ?`, first row. -/
def selectUser (h : DatabaseHandler) (username : Str) : Option UserRow :=
  h.db.users.find? fun row => row.username = username

/-- `getID`: empty when no row matches. -/
def getID (h : DatabaseHandler) (username : Str) : Str :=
  match h.selectUser username with
  | some row => row.uuid
  | none => []

/-- `getHashedPassword`: empty when no row matches. -/
def getHashedPassword (h : DatabaseHandler) (username : Str) : Str :=
  match h.selectUser username with
  | some row => row.password
  | none => []

/-- `login`. -/
def login (h : DatabaseHandler) (username password : Str) : Bool :=
  let hashedInputPassword := h.hashPassword password
  let storedHashedPassword := h.getHashedPassword username
  !storedHashedPassword.isEmpty && hashedInputPassword = storedHashedPassword

/-- `isAdmin`: `sqlite3_column_int` keeps the low 32 bits of ROLE. -/
def isAdmin (h : DatabaseHandler) (username : Str) : Bool :=
  match h.selectUser username with
  | some row => row.role % 2 ^ 32 ≠ 0
  | none => false

variable {h : DatabaseHandler} {username : Str}

/-- An accepted login is of a user in the table. -/
theorem selectUser_of_login {password : Str} (accepted : h.login username password = true) :
    ∃ row ∈ h.db.users, row.username = username ∧ h.selectUser username = some row := by
  unfold login getHashedPassword at accepted
  cases hrow : h.selectUser username with
  | none => simp [hrow] at accepted
  | some row =>
      have hname := List.find?_some hrow
      exact ⟨row, List.mem_of_find?_eq_some hrow, by simpa using hname, rfl⟩

theorem selectUser_of_isAdmin (admin : h.isAdmin username = true) :
    ∃ row ∈ h.db.users, row.username = username ∧ h.selectUser username = some row := by
  unfold isAdmin at admin
  cases hrow : h.selectUser username with
  | none => simp [hrow] at admin
  | some row =>
      have hname := List.find?_some hrow
      exact ⟨row, List.mem_of_find?_eq_some hrow, by simpa using hname, rfl⟩

/-- The UUID an accepted login yields is a row's. -/
theorem getID_mem_of_login {password : Str} (accepted : h.login username password = true) :
    ∃ row ∈ h.db.users, h.getID username = row.uuid := by
  obtain ⟨row, hmem, -, hrow⟩ := selectUser_of_login accepted
  exact ⟨row, hmem, by simp [getID, hrow]⟩

/-- Users with one UUID are one user, since it is the primary key. -/
theorem username_eq_of_getID_eq {other : Str} {row row' : UserRow}
    (hrow : row ∈ h.db.users) (hrow' : row' ∈ h.db.users)
    (hname : row.username = username) (hname' : row'.username = other)
    (hsel : h.selectUser username = some row) (hsel' : h.selectUser other = some row')
    (same : h.getID username = h.getID other) : username = other := by
  have huuid : row.uuid = row'.uuid := by simpa [getID, hsel, hsel'] using same
  have : row = row' := List.inj_on_of_nodup_map h.db.uuid_unique hrow hrow' huuid
  rw [← hname, ← hname', this]

end DatabaseHandler

end ConcurrentTcp
