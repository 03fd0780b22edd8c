import ConcurrentTcp.Common.FsPath

/-!
The maintenance tool (`utils/db_maintenance.cpp`): the UUIDs and the SQL text with which it
puts users into the USERS table. Its UUIDs are the only ones the server reads, and name a
directory entry.
-/

namespace ConcurrentTcp

/-- A digit in `std::hex`. -/
def hexDigit (n : Fin 16) : UInt8 :=
  if n < 10 then 48 + n.val.toUInt8 else 87 + n.val.toUInt8

/-- `count` draws of `dis`, from draw `i` on. -/
def hexDigits (dis : Nat → Fin 16) (i count : Nat) : Str :=
  (List.range count).map fun k => hexDigit (dis (i + k))

/-- `generate_uuid`: `dis` are the draws from 0 to 15, `dis2` is the draw from 8 to 11. -/
def generateUuid (dis : Nat → Fin 16) (dis2 : Fin 4) : Str :=
  hexDigits dis 0 8 ++ ascii "-" ++ hexDigits dis 8 4 ++ ascii "-4" ++ hexDigits dis 12 3 ++
    ascii "-" ++ [hexDigit ⟨8 + dis2, by omega⟩] ++ hexDigits dis 15 3 ++ ascii "-" ++
    hexDigits dis 18 12

theorem slash_ne_hexDigit (n : Fin 16) : slash ≠ hexDigit n := by
  revert n
  decide

theorem slash_notMem_hexDigits (dis : Nat → Fin 16) (i count : Nat) :
    slash ∉ hexDigits dis i count := by
  intro hmem
  obtain ⟨k, -, hk⟩ := List.mem_map.mp hmem
  exact slash_ne_hexDigit _ hk.symm

theorem length_hexDigits (dis : Nat → Fin 16) (i count : Nat) :
    (hexDigits dis i count).length = count := by
  simp [hexDigits]

theorem length_generateUuid (dis : Nat → Fin 16) (dis2 : Fin 4) :
    (generateUuid dis dis2).length = 36 := by
  simp [generateUuid, length_hexDigits, ascii]

/-- Every generated UUID is the name of a directory entry. -/
theorem named_generateUuid (dis : Nat → Fin 16) (dis2 : Fin 4) :
    Named (generateUuid dis dis2) := by
  have hlength := length_generateUuid dis dis2
  have hdash : slash ∉ ascii "-" := by decide
  have hversion : slash ∉ ascii "-4" := by decide
  have hslash : slash ∉ generateUuid dis dis2 := by
    simp only [generateUuid, List.mem_append, List.mem_singleton, not_or]
    simp only [hdash, hversion, slash_notMem_hexDigits, slash_ne_hexDigit, not_false_eq_true,
      and_self]
  refine ⟨fun hempty => ?_, hslash, fun hdot => ?_, fun hdots => ?_⟩
  · rw [hempty] at hlength
    cases hlength
  · rw [hdot] at hlength
    cases hlength
  · rw [hdots] at hlength
    cases hlength

/-! ### Users -/

/-- A byte with `std::hex`, `std::setw(2)` and `std::setfill('0')`. -/
def hexByte (b : UInt8) : Str :=
  [hexDigit ⟨b.toNat / 16, by have := b.toNat_lt; omega⟩, hexDigit ⟨b.toNat % 16, by omega⟩]

/-- `hash_password`, which is also `DatabaseHandler::hashPassword`: `sha512` is the digest
of OpenSSL. -/
def hashPassword (sha512 : Str → List UInt8) (input : Str) : Str :=
  (sha512 input).flatMap hexByte

/-- The text of `sql` in `add_user`. -/
def addUserSql (uuid username password : Str) (isAdmin : Bool) : Str :=
  if isAdmin then
    ascii "INSERT INTO USERS (UUID, USERNAME, PASSWORD, ROLE) VALUES ('" ++ uuid ++
      ascii "', '" ++ username ++ ascii "', '" ++ password ++ ascii "', 1);"
  else
    ascii "INSERT INTO USERS (UUID, USERNAME, PASSWORD) VALUES ('" ++ uuid ++
      ascii "', '" ++ username ++ ascii "', '" ++ password ++ ascii "');"

/-- What `add_user` reads, and the draws of its UUID. -/
structure AddUser where
  username : Str
  password : Str
  choice : UInt8
  dis : Nat → Fin 16
  dis2 : Fin 4

namespace AddUser

def uuid (a : AddUser) : Str := generateUuid a.dis a.dis2

/-- `choice == 'y'`. -/
def isAdmin (a : AddUser) : Bool := a.choice = 121

/-- What `sqlite3_exec` gets: `c_str` ends at the first NUL. -/
def sql (sha512 : Str → List UInt8) (a : AddUser) : Str :=
  (addUserSql a.uuid a.username (hashPassword sha512 a.password) a.isAdmin).takeWhile (· ≠ 0)

end AddUser

/-- No NUL and no single quote. -/
def Unquoted (s : Str) : Prop := ∀ c ∈ s, c ≠ 0 ∧ c ≠ 39

instance (s : Str) : Decidable (Unquoted s) := List.decidableBAll _ s

theorem hexDigit_ne (n : Fin 16) : hexDigit n ≠ 0 ∧ hexDigit n ≠ 39 := by
  revert n
  decide

theorem unquoted_hexDigits (dis : Nat → Fin 16) (i count : Nat) :
    Unquoted (hexDigits dis i count) := by
  intro c hc
  obtain ⟨k, -, rfl⟩ := List.mem_map.mp hc
  exact hexDigit_ne _

theorem Unquoted.append {s t : Str} (hs : Unquoted s) (ht : Unquoted t) :
    Unquoted (s ++ t) :=
  List.forall_mem_append.mpr ⟨hs, ht⟩

theorem unquoted_generateUuid (dis : Nat → Fin 16) (dis2 : Fin 4) :
    Unquoted (generateUuid dis dis2) := by
  have hdash : Unquoted (ascii "-") := by decide
  have hversion : Unquoted (ascii "-4") := by decide
  have digits := unquoted_hexDigits dis
  have one (n : Fin 16) : Unquoted [hexDigit n] :=
    List.forall_mem_singleton.mpr (hexDigit_ne n)
  unfold generateUuid
  exact ((((((((digits 0 8).append hdash).append (digits 8 4)).append hversion).append
    (digits 12 3)).append hdash).append (one _)).append (digits 15 3)).append hdash
    |>.append (digits 18 12)

theorem unquoted_hashPassword (sha512 : Str → List UInt8) (input : Str) :
    Unquoted (hashPassword sha512 input) := by
  intro c hc
  obtain ⟨b, -, hb⟩ := List.mem_flatMap.mp hc
  rcases List.mem_cons.mp hb with rfl | hb
  · exact hexDigit_ne _
  · rw [List.mem_singleton.mp hb]
    exact hexDigit_ne _

theorem hashPassword_ne_nil {sha512 : Str → List UInt8} {input : Str} (h : sha512 input ≠ []) :
    hashPassword sha512 input ≠ [] := by
  obtain ⟨b, rest, hdigest⟩ := List.exists_cons_of_ne_nil h
  simp [hashPassword, hdigest, hexByte]

end ConcurrentTcp
