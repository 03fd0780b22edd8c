import ConcurrentTcp.Server.AdminPrivilege
import ConcurrentTcp.Server.Requests

/-!
Nothing happens without a login.

The gate of the dispatch looks at the connection's id only. `LoginStands` says
what the id means: it is the UUID of the latest accepted login of the connection,
and nothing has ended that login since. `idsFromLogins_of_run` carries this through
every step of every run, and `nothing_without_login` reads off the gate.
-/

namespace ConcurrentTcp

open Interaction Transition

/-! ### Logins in a run -/

/-- A login of `c` with these credentials that the database accepted and that was
not answered with admin-already-connected. -/
def AcceptedLogin (users : DatabaseHandler) (c : ConnId) (p : PacketLogin) : RequestLabel → Prop
  | .packet d .reqLogin _ cb _ events (.ok _) =>
      d = c ∧ PacketLogin.decode cb.buffer = some p ∧
        users.login p.username p.password = true ∧ ¬ Answered events .respAdminAlreadyConnected
  | _ => False

/-- A logout of `c`, a login of `c` answered with admin-already-connected, and the
beginning and the end of the connection. -/
def EndsLogin (c : ConnId) : RequestLabel → Prop
  | .accept d _ => d = c
  | .packet d .reqLogout _ _ _ _ _ => d = c
  | .packet d .reqLogin _ _ _ events _ => d = c ∧ Answered events .respAdminAlreadyConnected
  | .disconnect d _ _ => d = c
  | _ => False

/-- The latest accepted login of `c` gave it this id, and has not ended. -/
def LoginStands (users : DatabaseHandler) (c : ConnId)
    (moves : List (Move RequestState RequestLabel)) (id : Str) : Prop :=
  ∃ before m after p, moves = before ++ m :: after ∧ AcceptedLogin users c p m.label ∧
    users.getID p.username = id ∧
    ∀ later ∈ after, ¬ EndsLogin c later.label ∧ ∀ q, ¬ AcceptedLogin users c q later.label

section Stands

variable {users : DatabaseHandler} {c : ConnId} {moves : List (Move RequestState RequestLabel)}
  {m : Move RequestState RequestLabel}

theorem LoginStands.now {p : PacketLogin} (h : AcceptedLogin users c p m.label) :
    LoginStands users c (moves ++ [m]) (users.getID p.username) :=
  ⟨moves, m, [], p, rfl, h, rfl, by simp⟩

theorem LoginStands.later {id : Str} (h : LoginStands users c moves id)
    (lasts : ¬ EndsLogin c m.label) (other : ∀ q, ¬ AcceptedLogin users c q m.label) :
    LoginStands users c (moves ++ [m]) id := by
  obtain ⟨before, first, after, p, rfl, accepted, hid, since⟩ := h
  refine ⟨before, first, after ++ [m], p, by simp, accepted, hid, fun later hlater => ?_⟩
  rcases List.mem_append.mp hlater with hold | hnew
  · exact since later hold
  · cases List.mem_singleton.mp hnew
    exact ⟨lasts, other⟩

end Stands

/-! ### What a login request answers -/

section Answer

variable {users : DatabaseHandler} {cb : ConnectionBuffer} {s t : HandlerState}
  {events : List ServerEvent}

theorem answered_cons_mkdir {path : Str} {ans : (SysCall.mkdir path).Answer}
    {answer : PacketType} :
    Answered (⟨.mkdir path, ans⟩ :: events) answer ↔ Answered events answer := by
  simp [Answered]

/-- An answer shows its type. -/
theorem answered_send {p : Buffer} {length : Nat} {answer : PacketType} (h : 2 ≤ length) :
    Answered [⟨.send (p.read 0 length), ()⟩] answer ↔ p.command = answer.toByte := by
  have hcommand : (p.read 0 length)[1]? = some p.command := Buffer.getElem?_read p 0 h
  simp only [Answered, List.mem_singleton, exists_eq_left, SysCall.send.injEq, exists_eq_left',
    hcommand, Option.some.injEq]

theorem command_createLoggedInPacket (isAdmin : Bool) (p : Buffer) :
    (createLoggedInPacket isAdmin p).command = PacketType.respLoggedIn.toByte := by
  simp [createLoggedInPacket, Buffer.command_write]

/-- Admin-already-connected is the answer to an accepted admin while one is
connected, and to nothing else. -/
theorem answered_reqLogin {p : PacketLogin} (hdecode : PacketLogin.decode cb.buffer = some p)
    (run : Exec (reqLogin users cb s) events (.ok t)) :
    Answered events .respAdminAlreadyConnected ↔
      users.login p.username p.password = true ∧ users.isAdmin p.username = true ∧
        s.g.bAdminConnected = true := by
  have other_answer : ∀ {u : HandlerState} {rest : List ServerEvent},
      Exec (sendLoggedIn u) rest (.ok t) → ¬ Answered rest .respAdminAlreadyConnected := by
    intro u rest sent
    obtain ⟨rfl, -⟩ := exec_respond_iff.mp sent
    rw [answered_send (by decide), command_createLoggedInPacket]
    simp
  unfold reqLogin at run
  rw [hdecode] at run
  simp only [orUndefined, Prog.ret_bind, sys_bind] at run
  by_cases accepted : users.login p.username p.password = true
  · rw [if_pos accepted] at run
    obtain ⟨made, rest, rfl, sent⟩ := Exec.call_iff.mp run
    by_cases admin : users.isAdmin p.username = true
    · simp only [admin, if_true] at sent
      by_cases connected : s.g.bAdminConnected = true
      · rw [if_pos connected] at sent
        obtain ⟨rfl, -⟩ := exec_respond_iff.mp sent
        rw [answered_cons_mkdir, answered_send (by decide)]
        simp [accepted, admin, connected]
      · rw [if_neg connected] at sent
        rw [answered_cons_mkdir]
        simp [accepted, admin, connected, other_answer sent]
    · simp only [admin, Bool.false_eq_true, if_false] at sent
      rw [answered_cons_mkdir]
      simp [accepted, admin, other_answer sent]
  · rw [if_neg accepted] at run
    obtain ⟨rfl, -⟩ := exec_respond_iff.mp run
    rw [answered_send (by decide)]
    simp [accepted]

end Answer

/-! ### Runs -/

/-- The id of every live session is its standing login's. -/
def IdsFromLogins (users : DatabaseHandler) (moves : List (Move RequestState RequestLabel))
    (w : RequestState) : Prop :=
  w.terminated = false → ∀ c session, w.live c = some session → session.id ≠ [] →
    LoginStands users c moves session.id

section Step

variable {users : DatabaseHandler} {past : List (Move RequestState RequestLabel)}
  {w : RequestState}

/-- What a request that returned leaves of the login of its connection. -/
theorem loginStands_packet {c : ConnId} {ty : PacketType} {receiveBuffer tls : Buffer}
    {cb : ConnectionBuffer} {session : Session} {events : List ServerEvent} {t : HandlerState}
    {fuel : Nat} {v : RequestState}
    (now : session.id ≠ [] → LoginStands users c past session.id)
    (run : Exec (dispatch users fuel ty receiveBuffer cb ⟨session, w.g, tls⟩) events (.ok t))
    (hid : t.session.id ≠ []) :
    LoginStands users c
      (past ++ [⟨w, .packet c ty receiveBuffer cb tls events (.ok t), v⟩]) t.session.id := by
  cases packet_effect run with
  | login p hdecode same =>
      have login : Exec (reqLogin users cb ⟨session, w.g, tls⟩) events (.ok t) := run
      have hanswer := answered_reqLogin hdecode login
      rw [same.id] at hid ⊢
      unfold HandlerState.afterLogin at hid ⊢
      by_cases accepted : users.login p.username p.password = true
      · simp only [accepted, if_true] at hid ⊢
        have stands : ¬ Answered events .respAdminAlreadyConnected →
            LoginStands users c
              (past ++ [⟨w, .packet c .reqLogin receiveBuffer cb tls events (.ok t), v⟩])
              (users.getID p.username) :=
          fun hnot => .now ⟨rfl, hdecode, accepted, hnot⟩
        by_cases admin : users.isAdmin p.username = true
        · by_cases connected : w.g.bAdminConnected = true
          · simp [admin, connected, Session.rejected] at hid
          · simp only [admin, connected, if_true, Bool.false_eq_true, if_false]
            exact stands (by simp [hanswer, connected])
        · simp only [admin, Bool.false_eq_true, if_false]
          exact stands (by simp [hanswer, admin])
      · simp only [accepted, Bool.false_eq_true, if_false] at hid ⊢
        refine (now hid).later ?_ ?_
        · simp [EndsLogin, hanswer, accepted]
        · simp [AcceptedLogin, hdecode, accepted]
  | logout same =>
      rw [same.id] at hid
      exact absurd rfl hid
  | changeDirectory path newDir moves hlogged cd hne same =>
      rw [same.id] at hid ⊢
      exact (now hid).later (by simp [EndsLogin]) (by simp [AcceptedLogin])
  | keep hlogin hlogout same =>
      rw [same.id] at hid ⊢
      refine (now hid).later ?_ ?_
      · simp [EndsLogin, hlogin, hlogout]
      · simp [AcceptedLogin, hlogin]

/-- Steps of other connections do not concern the login. -/
theorem LoginStands.of_ne {c : ConnId} {l : RequestLabel} {v : RequestState} {id : Str}
    (h : LoginStands users c past id) (hne : c ≠ l.connection) :
    LoginStands users c (past ++ [⟨w, l, v⟩]) id := by
  refine h.later ?_ ?_
  · intro ends
    cases l with
    | accept d socketFd => exact hne ends.symm
    | packet d ty receiveBuffer cb tls events out =>
        unfold EndsLogin at ends
        split at ends <;> simp_all [RequestLabel.connection]
    | disconnect d events out => exact hne ends.symm
  · intro q accepted
    cases l with
    | accept d socketFd => exact accepted
    | packet d ty receiveBuffer cb tls events out =>
        unfold AcceptedLogin at accepted
        split at accepted <;> simp_all [RequestLabel.connection]
    | disconnect d events out => exact accepted

theorem idsFromLogins_step {l : RequestLabel} {v : RequestState}
    (now : IdsFromLogins users past w) (running : w.terminated = false)
    (step : RequestStep users w l v) : IdsFromLogins users (past ++ [⟨w, l, v⟩]) v := by
  intro alive c session hlive hid
  have earlier := now running
  by_cases hc : c = l.connection
  swap
  · rw [step.live_of_ne hc] at hlive
    exact (earlier c session hlive hid).of_ne hc
  subst hc
  cases step with
  | accept hfree =>
      simp only [RequestLabel.connection, RequestState.live_next_self] at hlive
      cases hlive
      exact absurd rfl hid
  | @packet d ty receiveBuffer tls cb before events out fuel hbefore run hfuel =>
      cases out with
      | error e => cases alive
      | ok t =>
          simp only [RequestLabel.connection, Except.map, RequestState.live_next_self] at hlive
          cases hlive
          exact loginStands_packet (earlier d before hbefore) run hid
  | @disconnect d before events out hbefore run =>
      cases out with
      | error e => cases alive
      | ok g =>
          simp only [RequestLabel.connection, Except.map, RequestState.live_next_self] at hlive
          cases hlive

theorem idsFromLogins_of_run {moves : List (Move RequestState RequestLabel)}
    (run : Run (requestSystem users) .initial moves w) : IdsFromLogins users moves w := by
  apply run.history
  · rintro past s l t now ⟨running, step⟩
    exact idsFromLogins_step now running step
  · intro _ c session hlive
    cases hlive

end Step

/-! ### The gate -/

/-- The step did something other than to send the not-logged-in response: it made
another call, on files or to send, or it changed the global state. -/
def ActsBeyondRefusal (g : GlobalState) (events : List ServerEvent)
    (out : Except Fault HandlerState) : Prop :=
  (∃ e ∈ events, ∀ version,
      e.op ≠ .send (version :: PacketType.respNotLoggedIn.toByte :: le16 sizeofSamplePacket)) ∨
    ∃ t, out = .ok t ∧ t.g ≠ g

/-- Each step other than login, ping and logout that does anything has a standing
login, and runs with its id. -/
def NothingWithoutLogin (users : DatabaseHandler)
    (moves : List (Move RequestState RequestLabel)) : Prop :=
  ∀ past pre post rest c ty receiveBuffer cb tls events out,
    moves = past ++ ⟨pre, .packet c ty receiveBuffer cb tls events out, post⟩ :: rest →
    ty ≠ .reqLogin → ty ≠ .reqPing → ty ≠ .reqLogout → ActsBeyondRefusal pre.g events out →
    ∃ session, pre.live c = some session ∧ LoginStands users c past session.id

/-- Without an id only the refusal is sent. -/
theorem dispatch_refuses {users : DatabaseHandler} {fuel : Nat} {ty : PacketType}
    {receiveBuffer : Buffer} {cb : ConnectionBuffer} {s : HandlerState}
    {events : List ServerEvent} {out : Except Fault HandlerState}
    (hgate : ty.needsNoLogin = false) (hid : s.session.id = [])
    (run : Exec (dispatch users fuel ty receiveBuffer cb s) events out) :
    ¬ ActsBeyondRefusal s.g events out := by
  have refused : dispatch users fuel ty receiveBuffer cb s = sendRespUnauthorized s := by
    unfold dispatch
    rw [if_pos (by simp [hgate, hid])]
  rw [refused] at run
  obtain ⟨rfl, rfl⟩ := exec_respond_iff.mp run
  rintro (⟨e, hmem, hother⟩ | ⟨t, ht, hg⟩)
  · cases List.mem_singleton.mp hmem
    exact hother (s.tls 0) (congrArg SysCall.send (s.tls.read_setHeader .respNotLoggedIn 4))
  · cases ht
    exact hg rfl

/-- In every run of any number of connections, over every user database, and with any answers of
the operating system: a request other than login, ping and logout that does more than refuse
comes while its connection has a standing login, and runs with the id of that login. -/
theorem nothing_without_login {users : DatabaseHandler}
    {moves : List (Move RequestState RequestLabel)} {w : RequestState}
    (run : Run (requestSystem users) .initial moves w) : NothingWithoutLogin users moves := by
  intro past pre post rest c ty receiveBuffer cb tls events out hsplit hlogin hping hlogout acts
  subst hsplit
  obtain ⟨before, running, step⟩ := run.split
  have hgate : ty.needsNoLogin = false := by
    cases ty <;> first | rfl | contradiction
  have ids := idsFromLogins_of_run before running
  obtain ⟨fuel, session, hlive, exec, -⟩ := step.packet_inv
  refine ⟨session, hlive, ids c session hlive fun hid => ?_⟩
  exact dispatch_refuses hgate hid exec acts

/-- The root of the example users logs in on connection 0. -/
theorem exists_rootLogin_requests :
    ∃ moves w, Run (requestSystem exampleUsers) .initial moves w ∧ w.terminated = false ∧
      w.live 0 = some rootSession ∧ w.g = adminConnected := by
  have accepted : RequestStep exampleUsers .initial (.accept 0 5)
      (RequestState.initial.next 0 (.ok (some (.accepted 5), .initial))) := .accept rfl
  obtain ⟨events, t, login, hsession, hg⟩ := exec_reqLogin exampleUsers decode_rootLogin
    ⟨.accepted 5, .initial, Buffer.zero⟩
  rw [afterLogin_root.1] at hsession
  rw [afterLogin_root.2] at hg
  have loggedIn : RequestStep exampleUsers
      (RequestState.initial.next 0 (.ok (some (.accepted 5), .initial)))
      (.packet 0 .reqLogin Buffer.zero (loginPacket 0 (ascii "root") (ascii "a")) Buffer.zero
        events (.ok t)) _ := .packet 0 (RequestState.live_next_self ..) login (by simp)
  have run : Run (requestSystem exampleUsers) .initial _ _ :=
    .cons ⟨rfl, accepted⟩ (.cons ⟨rfl, loggedIn⟩ (.nil _))
  refine ⟨_, _, run, rfl, ?_, hg⟩
  rw [← hsession]
  exact RequestState.live_next_self ..

/-- The root of the example users logs in and asks who it is. -/
theorem nothing_without_login_root :
    ∃ past pre post events out w,
      Run (requestSystem exampleUsers) .initial
        (past ++ [⟨pre, .packet 0 .reqGetCurrentUser Buffer.zero ⟨0, []⟩ Buffer.zero events out,
          post⟩]) w ∧
      ActsBeyondRefusal pre.g events out ∧
      NothingWithoutLogin exampleUsers
        (past ++ [⟨pre, .packet 0 .reqGetCurrentUser Buffer.zero ⟨0, []⟩ Buffer.zero events out,
          post⟩]) := by
  obtain ⟨moves, w, login, running, hlive, hg⟩ := exists_rootLogin_requests
  have asked : RequestStep exampleUsers w
      (.packet 0 .reqGetCurrentUser Buffer.zero ⟨0, []⟩ Buffer.zero _ _) _ :=
    .packet 0 hlive (exec_respond ⟨rootSession, w.g, Buffer.zero⟩ _ _) (by simp)
  have run := login.append (.one ⟨running, asked⟩)
  refine ⟨moves, w, _, _, _, _, run, .inl ⟨_, List.mem_singleton.mpr rfl, ?_⟩, ?_⟩
  · intro version hop
    have hlen := congrArg List.length (SysCall.send.inj hop)
    simp [sizeofPacketCurrentUser, le16] at hlen
  · exact nothing_without_login run

end ConcurrentTcp
