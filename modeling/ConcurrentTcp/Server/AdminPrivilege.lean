import ConcurrentTcp.Server.Sessions

/-!
Admin privilege and the current login.

`is_admin` is set when an admin logs in and is never cleared, neither by a
logout nor by a later login. `AdminStepOk` says which steps this does not spoil,
and `admin_privilege_iff` that those steps are exactly the ones after which the
privilege still belongs to the current login. What the privilege protects are
the five admin-only handlers: without it they only answer.
-/

namespace ConcurrentTcp

open Interaction Transition

/-- The session is logged in as an admin of the database. -/
def AdminLogin (users : DatabaseHandler) (session : Session) : Prop :=
  session.id ≠ [] ∧
    ∃ username, users.isAdmin username = true ∧ users.getID username = session.id

/-- A live connection has admin privilege only as an admin's login. -/
def AdminFollowsLogin (users : DatabaseHandler) (w : SessionState) : Prop :=
  ∀ c session, w.live c = some session → session.isAdmin = true → AdminLogin users session

/-! ### The admin-only handlers -/

/-- Server status, connections info, settings, and clean. -/
def PacketType.adminOnly : PacketType → Bool
  | .reqServerStatus | .reqConnectionsInfo | .reqGetSettings | .reqSetSetting | .reqClean => true
  | _ => false

/-- The request is answered with a refusal and nothing else is done. -/
def Refused (s : HandlerState) (p : ServerProg HandlerState) : Prop :=
  p = sendRespNotAdmin s ∨ p = sendRespUnauthorized s

/-- Connections without an admin's login are refused every admin-only request. -/
def AdminHandlersGuarded (users : DatabaseHandler) (w : SessionState) : Prop :=
  ∀ c session, w.live c = some session → ¬ AdminLogin users session →
    ∀ ty fuel receiveBuffer cb tls, PacketType.adminOnly ty = true →
      Refused ⟨session, w.g, tls⟩
        (dispatch users fuel ty receiveBuffer cb ⟨session, w.g, tls⟩)

/-- Without the flag an admin-only request is refused. -/
theorem dispatch_adminOnly_refused (users : DatabaseHandler) (fuel : Nat) {ty : PacketType}
    (receiveBuffer : Buffer) (cb : ConnectionBuffer) {s : HandlerState}
    (hty : ty.adminOnly = true) (hflag : s.session.isAdmin = false) :
    Refused s (dispatch users fuel ty receiveBuffer cb s) := by
  unfold dispatch
  split
  · exact .inr rfl
  · left
    unfold PacketType.adminOnly at hty
    split at hty
    · simp [handlers, reqServerStatus, hflag]
    · simp [handlers, reqConnectionsInfo, hflag]
    · simp [handlers, reqGetSettings, hflag]
    · simp [handlers, reqSetSetting, hflag]
    · simp [handlers, reqClean, hflag]
    · cases hty

theorem AdminFollowsLogin.handlersGuarded {users : DatabaseHandler} {w : SessionState}
    (h : AdminFollowsLogin users w) : AdminHandlersGuarded users w := by
  intro c session hlive hnot ty fuel receiveBuffer cb tls hty
  apply dispatch_adminOnly_refused users fuel receiveBuffer cb hty
  by_contra hflag
  exact hnot (h c session hlive (by simpa using hflag))

/-! ### Steps that keep the privilege with the login -/

/-- No logout with the flag set; no accepted login with the flag set, unless it
makes the connection the admin; and an admin's UUID is not empty. -/
def AdminStepOk (users : DatabaseHandler) (w : SessionState) : SessionLabel → Prop
  | .packet c .reqLogout _ _ =>
      ∀ session, w.live c = some session → session.isAdmin = false
  | .packet c .reqLogin _ cb =>
      ∀ session p, w.live c = some session → PacketLogin.decode cb.buffer = some p →
        users.login p.username p.password = true →
        if users.isAdmin p.username && !w.g.bAdminConnected then users.getID p.username ≠ []
        else session.isAdmin = false
  | _ => True

section Step

variable {users : DatabaseHandler} {w v : SessionState}

/-- An accepted user whose UUID is an admin's is that admin. -/
theorem isAdmin_of_getID_eq {username password other : Str}
    (accepted : users.login username password = true) (admin : users.isAdmin other = true)
    (same : users.getID other = users.getID username) : users.isAdmin username = true := by
  obtain ⟨row, hmem, hname, hsel⟩ := users.selectUser_of_login accepted
  obtain ⟨row', hmem', hname', hsel'⟩ := users.selectUser_of_isAdmin admin
  have : other = username :=
    users.username_eq_of_getID_eq hmem' hmem hname' hname hsel' hsel same
  rwa [← this]

/-- After a login the privilege follows it exactly when the login is as
`AdminStepOk` asks. -/
theorem afterLogin_follows_iff {s : HandlerState} {p : PacketLogin}
    (now : s.session.isAdmin = true → AdminLogin users s.session) :
    ((s.afterLogin users p).session.isAdmin = true →
        AdminLogin users (s.afterLogin users p).session) ↔
      (users.login p.username p.password = true →
        if users.isAdmin p.username && !s.g.bAdminConnected then users.getID p.username ≠ []
        else s.session.isAdmin = false) := by
  unfold HandlerState.afterLogin
  by_cases accepted : users.login p.username p.password = true
  swap
  · simpa [accepted] using now
  by_cases admin : users.isAdmin p.username = true
  · cases connected : s.g.bAdminConnected with
    | false =>
        simp only [accepted, admin, connected, HandlerState.registerAdmin, if_true,
          Bool.and_true, Bool.not_false, true_implies, Bool.false_eq_true, if_false]
        constructor
        · exact fun follows => follows.1
        · exact fun hne => ⟨hne, p.username, admin, rfl⟩
    | true =>
        simp [accepted, admin, connected, AdminLogin, Session.rejected, Session.loggedIn]
  · simp only [accepted, admin, if_true, Bool.false_and, true_implies, Bool.false_eq_true, if_false]
    constructor
    · intro follows
      by_contra hflag
      obtain ⟨-, other, hother, hid⟩ := follows (by simpa [Session.loggedIn] using hflag)
      exact admin (isAdmin_of_getID_eq accepted hother hid)
    · intro hflag htrue
      simp [Session.loggedIn, hflag] at htrue

theorem afterLogout_follows_iff {s : HandlerState} :
    (s.afterLogout.session.isAdmin = true → AdminLogin users s.afterLogout.session) ↔
      s.session.isAdmin = false := by
  simp [HandlerState.afterLogout, AdminLogin]

theorem SameLogin.follows_iff {s t : HandlerState} (same : SameLogin s t) :
    (t.session.isAdmin = true → AdminLogin users t.session) ↔
      (s.session.isAdmin = true → AdminLogin users s.session) := by
  simp only [AdminLogin, same.id, same.isAdmin]

/-- From a state where the privilege follows the login, exactly the steps of
`AdminStepOk` lead to such a state. -/
theorem admin_step_iff (l : SessionLabel) (now : AdminFollowsLogin users w)
    (step : SessionStep users w l v) : AdminFollowsLogin users v ↔ AdminStepOk users w l := by
  cases step with
  | accept hfree =>
      apply (SessionState.forall_live_set_iff now).trans
      simp [AdminStepOk, Session.accepted]
  | @packet c ty receiveBuffer cb session fuel tls events t hlive run =>
      apply (SessionState.forall_live_set_iff now).trans
      have here := now c session hlive
      have effect := packet_effect run
      simp only [Option.some.injEq, forall_eq']
      cases effect with
      | login p hdecode same =>
          refine same.follows_iff.trans ((afterLogin_follows_iff here).trans ?_)
          simp [AdminStepOk, hlive, hdecode]
      | logout same =>
          refine same.follows_iff.trans (afterLogout_follows_iff.trans ?_)
          simp [AdminStepOk, hlive]
      | changeDirectory path newDir moves hid cd hne same =>
          exact iff_of_true (same.follows_iff.mpr here) trivial
      | keep hlogin hlogout same =>
          apply iff_of_true (same.follows_iff.mpr here)
          unfold AdminStepOk
          split
          · rename_i heq
            cases heq
            exact absurd rfl hlogout
          · rename_i heq
            cases heq
            exact absurd rfl hlogin
          · trivial
  | disconnect events hlive run =>
      apply (SessionState.forall_live_set_iff now).trans
      simp [AdminStepOk]

end Step

/-! ### Runs -/

theorem adminFollowsLogin_initial (users : DatabaseHandler) :
    AdminFollowsLogin users .initial := by
  intro c session hlive
  cases hlive

/-- In a run of the server, with any requests of any connections over any user database, the
privilege follows the login in every state reached, and so protects the admin-only handlers,
exactly when every step is as `AdminStepOk` asks: the flag outlives a logout, and a login that
is not accepted as the only admin may find it set. -/
theorem admin_privilege_iff {users : DatabaseHandler}
    {moves : List (Move SessionState SessionLabel)}
    {w : SessionState} (run : Run (sessionSystem users) .initial moves w) :
    (∀ m ∈ moves, AdminFollowsLogin users m.post ∧ AdminHandlersGuarded users m.post) ↔
      ∀ m ∈ moves, AdminStepOk users m.pre m.label := by
  have exact_step : ∀ v l u, AdminFollowsLogin users v → (sessionSystem users).step v l u →
      (AdminFollowsLogin users u ↔ AdminStepOk users v l) :=
    fun _ l _ now step => admin_step_iff l now step
  rw [← run.invariant_iff exact_step (adminFollowsLogin_initial users)]
  constructor
  · exact fun h m hm => (h m hm).1
  · exact fun h m hm => ⟨h m hm, (h m hm).handlersGuarded⟩

/-! ### An admin who logs out -/

/-- SHA-512 of `a`. -/
def exampleDigest : Str := ascii
  "1f40fc92da241694750979ee6cf582f2d5d7d28e18335de05abc54d0560e0f5302860c652bf08d560252aa5e74210546f369fbbbce8c12cfc7957b2652fe9a75"

/-- An admin and a user with the password `a`. -/
def exampleUsers : DatabaseHandler where
  db :=
    { users :=
        [{ uuid := ascii "1", username := ascii "root", password := exampleDigest, role := 1 },
          { uuid := ascii "ab", username := ascii "bob", password := exampleDigest, role := 0 }]
      uuid_unique := by decide }
  hashPassword := fun _ => exampleDigest

/-- A login packet as the client sends it. -/
def loginPacket (c : ConnId) (username password : Str) : ConnectionBuffer where
  connection := c
  frame := [1, PacketType.reqLogin.toByte] ++ le16 sizeofPacketLogin ++
    strncpy username 64 ++ strncpy password 64

/-- Connection `c` is accepted and logs in. -/
theorem exists_login_run (users : DatabaseHandler) {username password : Str}
    (hdecode : PacketLogin.decode (loginPacket 0 username password).buffer =
      some ⟨username, password⟩) :
    let w := SessionState.initial.set 0 (some (.accepted 5)) .initial
    let after := HandlerState.afterLogin ⟨.accepted 5, .initial, Buffer.zero⟩ users
      ⟨username, password⟩
    Run (sessionSystem users) .initial
      [⟨.initial, .accept 0 5, w⟩,
        ⟨w, .packet 0 .reqLogin Buffer.zero (loginPacket 0 username password),
          w.set 0 (some after.session) after.g⟩]
      (w.set 0 (some after.session) after.g) := by
  intro w after
  have accepted : SessionStep users .initial (.accept 0 5) w := .accept rfl
  have login : SessionStep users w
      (.packet 0 .reqLogin Buffer.zero (loginPacket 0 username password))
      (w.set 0 (some after.session) after.g) :=
    .login Buffer.zero hdecode (SessionState.set_live_self ..)
  exact .cons accepted (.cons login (.nil _))

theorem decode_rootLogin :
    PacketLogin.decode (loginPacket 0 (ascii "root") (ascii "a")).buffer =
      some ⟨ascii "root", ascii "a"⟩ := by decide

/-- The session of the admin of `exampleUsers` on connection 0. -/
def rootSession : Session :=
  { Session.accepted 5 with id := ascii "1", currentDir := ascii "./tmp/1", isAdmin := true }

def adminConnected : GlobalState := { GlobalState.initial with bAdminConnected := true }

theorem afterLogin_root :
    let after := HandlerState.afterLogin ⟨.accepted 5, .initial, Buffer.zero⟩ exampleUsers
      ⟨ascii "root", ascii "a"⟩
    after.session = rootSession ∧ after.g = adminConnected := by
  decide +kernel

/-- The privilege outlives the logout. -/
theorem logout_keeps_privilege :
    ∃ moves w, Run (sessionSystem exampleUsers) .initial moves w ∧
      ¬ AdminFollowsLogin exampleUsers w := by
  have login := exists_login_run exampleUsers decode_rootLogin
  simp only [afterLogin_root] at login
  have logout := SessionStep.logout exampleUsers Buffer.zero
    ⟨0, [1, PacketType.reqLogout.toByte, 4, 0]⟩
    (SessionState.set_live_self
      (SessionState.initial.set 0 (some (.accepted 5)) .initial) 0 (some rootSession)
        adminConnected)
  refine ⟨_, _, login.append (.one logout), fun follows => ?_⟩
  exact (follows 0 _ (SessionState.set_live_self ..) rfl).1 rfl

/-- The login of the admin is as asked, so the privilege follows it. -/
theorem admin_privilege_root :
    ∃ moves w, Run (sessionSystem exampleUsers) .initial moves w ∧ moves.length = 2 ∧
      ∀ m ∈ moves, AdminFollowsLogin exampleUsers m.post ∧
        AdminHandlersGuarded exampleUsers m.post := by
  have login := exists_login_run exampleUsers decode_rootLogin
  refine ⟨_, _, login, rfl, (admin_privilege_iff login).mpr ?_⟩
  simp only [List.mem_cons, List.not_mem_nil, or_false, forall_eq_or_imp, forall_eq]
  refine ⟨trivial, fun session p _ hdecode _ => ?_⟩
  rw [decode_rootLogin] at hdecode
  cases hdecode
  rw [if_pos (by decide)]
  decide

end ConcurrentTcp
