import ConcurrentTcp.Server.ChangeDirectory
import ConcurrentTcp.Server.Requests

/-!
The strings of a session.

A session's id and working directory are C strings of the responses about them. They come from
the user database and from request packets, component by component, so none of them has a NUL
inside, in any run.
-/

namespace ConcurrentTcp

open Interaction Transition

/-- The id fits `PacketCurrentUser`, and neither string has a NUL. -/
structure StringSession (session : Session) : Prop where
  idFits : session.id.length < 255
  id : 0 ∉ session.id
  currentDir : 0 ∉ session.currentDir

/-- Every UUID in the database is a string that fits `PacketCurrentUser`. -/
def StringUuids (users : DatabaseHandler) : Prop :=
  ∀ row ∈ users.db.users, row.uuid.length < 255 ∧ 0 ∉ row.uuid

theorem zero_ne_hexDigit (n : Fin 16) : 0 ≠ hexDigit n := by
  revert n
  decide

theorem zero_notMem_hexDigits (dis : Nat → Fin 16) (i count : Nat) :
    0 ∉ hexDigits dis i count := by
  intro hmem
  obtain ⟨k, -, hk⟩ := List.mem_map.mp hmem
  exact zero_ne_hexDigit _ hk.symm

/-- The maintenance tool writes no other UUIDs. -/
theorem stringUuids_of_generated {users : DatabaseHandler}
    (h : ∀ row ∈ users.db.users, ∃ dis dis2, row.uuid = generateUuid dis dis2) :
    StringUuids users := by
  intro row hmem
  obtain ⟨dis, dis2, huuid⟩ := h row hmem
  rw [huuid, length_generateUuid]
  refine ⟨by decide, ?_⟩
  have hdash : (0 : UInt8) ∉ ascii "-" ∧ (0 : UInt8) ∉ ascii "-4" := by decide
  simp only [generateUuid, List.mem_append, List.mem_singleton, zero_notMem_hexDigits,
    zero_ne_hexDigit, hdash.1, hdash.2, or_self, not_false_iff]

/-! ### Change of directory -/

/-- A C string ends at its first NUL. -/
theorem zero_notMem_of_cString {b : Buffer} {off len : Nat} {s : Str}
    (h : b.cString off len = some s) : 0 ∉ s := by
  induction len generalizing off s with
  | zero => cases h
  | succ len ih =>
      rw [Buffer.cString] at h
      split at h
      · cases h
        exact List.not_mem_nil
      · rename_i hne
        obtain ⟨rest, hrest, rfl⟩ := Option.map_eq_some_iff.mp h
        exact List.not_mem_cons_of_ne_of_not_mem (fun hzero => hne hzero.symm) (ih hrest)

theorem mem_sjoin_iff {parts : List Str} {c : UInt8} (hc : c ≠ slash) :
    c ∈ sjoin parts slash ↔ ∃ part ∈ parts, c ∈ part := by
  unfold sjoin
  induction parts with
  | nil => simp
  | cons part rest ih =>
      cases rest with
      | nil => simp
      | cons next rest =>
          rw [List.intercalate_cons_cons, List.mem_append, List.mem_append, List.mem_singleton,
            ih]
          simp [hc]

/-- Joining the parts of a path gives the path, so they have nothing else. -/
theorem zero_notMem_of_mem_ssplit {path part : Str} (hpath : 0 ∉ path)
    (hpart : part ∈ ssplit path slash) : 0 ∉ part := by
  intro hzero
  have hsplit : part ∈ path.splitOn slash := by
    rcases splitOn_cases path with h | h
    · exact h ▸ hpart
    · exact h ▸ List.mem_append_left _ hpart
  have hjoin : sjoin (path.splitOn slash) slash = path := List.intercalate_splitOn slash
  apply hpath
  rw [← hjoin]
  exact (mem_sjoin_iff (by decide)).mpr ⟨part, hsplit, hzero⟩

theorem zero_notMem_sjoin {parts : List Str} (h : ∀ part ∈ parts, 0 ∉ part) :
    0 ∉ sjoin parts slash := by
  rw [mem_sjoin_iff (by decide)]
  rintro ⟨part, hpart, hzero⟩
  exact h part hpart hzero

/-- The loop of `cd_command` puts together what it was given. -/
theorem ends_cdParts_string {pathParts : List Str} (parts : List Str)
    (hpath : ∀ part ∈ pathParts, 0 ∉ part) (hparts : ∀ part ∈ parts, 0 ∉ part) :
    Ends (fun dir => 0 ∉ dir) (cdParts pathParts parts) := by
  induction parts generalizing pathParts with
  | nil => exact zero_notMem_sjoin hpath
  | cons part rest ih =>
      obtain ⟨hpart, hrest⟩ := List.forall_mem_cons.mp hparts
      have hup : ∀ p ∈ (if pathParts.length > 3 then pathParts.dropLast else pathParts), 0 ∉ p := by
        split
        · exact fun p hp => hpath p (List.mem_of_mem_dropLast hp)
        · exact hpath
      have hdown : ∀ p ∈ pathParts ++ [part], 0 ∉ p := by
        simpa only [List.forall_mem_append, List.forall_mem_singleton] using And.intro hpath hpart
      unfold cdParts
      split
      · exact ih hup hrest
      split
      · refine .after fun _ => .after fun found => ?_
        split
        · exact List.not_mem_nil
        refine .after fun _ => .after fun directory => ?_
        split
        · exact List.not_mem_nil
        · exact ih hdown hrest
      · exact ih hpath hrest

/-! ### Sessions -/

section Sessions

variable {users : DatabaseHandler} {cb : ConnectionBuffer} {s t : HandlerState} {ty : PacketType}

theorem SameLogin.stringSession (same : SameLogin s t) (h : StringSession s.session) :
    StringSession t.session where
  idFits := same.id ▸ h.idFits
  id := same.id ▸ h.id
  currentDir := same.currentDir ▸ h.currentDir

theorem stringSession_accepted (socketFd : Int) : StringSession (.accepted socketFd) :=
  ⟨Nat.succ_pos 254, List.not_mem_nil, List.not_mem_nil⟩

theorem afterLogin_stringSession {p : PacketLogin} (huuid : StringUuids users)
    (h : StringSession s.session) : StringSession (s.afterLogin users p).session := by
  have fresh : users.login p.username p.password = true →
      StringSession (s.session.loggedIn users p.username) := by
    intro accepted
    obtain ⟨row, hmem, hid⟩ := DatabaseHandler.getID_mem_of_login accepted
    obtain ⟨hfits, hzero⟩ := huuid row hmem
    have hdir : 0 ∉ serverFilesDir ++ slash :: row.uuid := by
      have hfront : 0 ∉ serverFilesDir ++ [slash] := by decide
      rw [List.append_cons]
      exact fun hmem => (List.mem_append.mp hmem).elim hfront hzero
    rw [← hid] at hfits hzero hdir
    exact ⟨hfits, hzero, hdir⟩
  unfold HandlerState.afterLogin
  split
  · rename_i accepted
    dsimp only
    split
    · split
      · exact ⟨Nat.succ_pos 254, List.not_mem_nil, List.not_mem_nil⟩
      · obtain ⟨idFits, id, currentDir⟩ := fresh accepted
        exact ⟨idFits, id, currentDir⟩
    · exact fresh accepted
  · exact h

/-- The new directory is made of the old one and of the packet. -/
theorem ends_reqChangeWorkingDirectory_string (h : StringSession s.session) :
    Ends (fun t => StringSession t.session) (reqChangeWorkingDirectory cb s) := by
  unfold reqChangeWorkingDirectory
  cases hdecode : PacketCurrentDirectory.decodePath cb.buffer with
  | none => trivial
  | some path =>
      have hpath : 0 ∉ path := zero_notMem_of_cString hdecode
      simp only [orUndefined, Prog.ret_bind]
      refine .seq (ends_cdParts_string _ (fun _ => zero_notMem_of_mem_ssplit h.currentDir)
        fun _ => zero_notMem_of_mem_ssplit hpath) fun newDir hnewDir => ?_
      split
      · exact .after fun _ => h
      · exact .after fun _ => ⟨h.idFits, h.id, hnewDir⟩

/-- One dispatched packet. -/
theorem stringSession_dispatch {fuel : Nat} {receiveBuffer : Buffer} {events : List ServerEvent}
    (huuid : StringUuids users)
    (run : Exec (dispatch users fuel ty receiveBuffer cb s) events (.ok t))
    (h : StringSession s.session) : StringSession t.session := by
  cases packet_effect run with
  | login p hdecode same => exact same.stringSession (afterLogin_stringSession huuid h)
  | logout same =>
      exact same.stringSession ⟨Nat.succ_pos 254, List.not_mem_nil, h.currentDir⟩
  | keep hlogin hlogout same => exact same.stringSession h
  | changeDirectory path newDir moves hid cd hne same =>
      rw [dispatch_authorized hid rfl] at run
      exact (ends_reqChangeWorkingDirectory_string h).returns run

/-- Every live session of a run. -/
theorem stringSession_of_reachable (huuid : StringUuids users) {w : RequestState}
    (h : Reachable (requestSystem users) w) :
    ∀ c session, w.live c = some session → StringSession session := by
  refine h.invariant (I := fun w => ∀ c session, w.live c = some session → StringSession session)
    ?_ ?_
  · rintro w rfl c session ⟨⟩
  · rintro w l v now ⟨-, step⟩
    cases step with
    | accept hfree =>
        apply (SessionState.forall_live_set_iff now).mpr
        rintro session ⟨⟩
        exact stringSession_accepted _
    | @packet c ty receiveBuffer tls cb session events out fuel hlive run hfuel =>
        cases out with
        | error e => exact now
        | ok t =>
            apply (SessionState.forall_live_set_iff now).mpr
            rintro session ⟨⟩
            exact stringSession_dispatch huuid run (now _ _ hlive)
    | @disconnect c session events out hlive run =>
        cases out with
        | error e => exact now
        | ok g =>
            apply (SessionState.forall_live_set_iff now).mpr
            rintro session ⟨⟩

end Sessions

end ConcurrentTcp
