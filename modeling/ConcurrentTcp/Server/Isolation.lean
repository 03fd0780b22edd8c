import ConcurrentTcp.Base.Unread
import ConcurrentTcp.Server.LoginHistory
import ConcurrentTcp.Server.Workers

/-!
What connections do not see of one another.

The sessions share the global state: whether an admin is connected, and the setting.
`dispatch_ignores` and `dispatch_ignoresLevel` go through all handlers: without the privilege,
and without the login that gives it, none looks at the global state, and only the two requests
about the setting look at that. From this `Run.purge` takes steps out of whole runs.
`others_unseen`: to ordinary users everybody else is unseen, and ordinary users are unseen to
everybody else. `setting_unused`: the server does the same without the setting.

They also share the workers' response buffers, and there they are not apart. What is left of a
run is a run of the same workers with the buffers that they then have, so that the responses are
the same only up to the bytes that their builders leave (`SameResponse`). A label has the answers
of the operating system, and the sizes of the queues that an admin asks for; what connections
learn of one another from these is not in question here.
-/

namespace ConcurrentTcp

open Interaction Transition

/-! ### Handlers that do not look at the global state -/

/-- A session and a response buffer, with a global state. -/
def withGlobal (a : Session × Buffer) (g : GlobalState) : HandlerState := ⟨a.1, g, a.2⟩

/-- The requests whose handlers look at it. -/
def PacketType.readsGlobal : PacketType → Bool
  | .reqLogin | .reqLogout | .reqGetSettings | .reqSetSetting => true
  | _ => false

section Handlers

variable {users : DatabaseHandler} {fuel : Nat} {receiveBuffer : Buffer} {cb : ConnectionBuffer}
  {ty : PacketType} {g g' : GlobalState}

theorem ignores_respond (session : Session) (tls p : Buffer) (length : Nat) :
    Ignores withGlobal g g' (HandlerState.respond ⟨session, g, tls⟩ p length)
      (HandlerState.respond ⟨session, g', tls⟩ p length) :=
  .bind fun _ => .ret (session, p)

theorem ignores_sample (session : Session) (tls : Buffer) (answer : PacketType) :
    Ignores withGlobal g g' (sendSampleResp ⟨session, g, tls⟩ answer)
      (sendSampleResp ⟨session, g', tls⟩ answer) :=
  ignores_respond session tls _ _

theorem ignores_transferPath (operation : Str → Str → ServerProg Bool) (session : Session)
    (tls : Buffer) :
    Ignores withGlobal g g' (transferPath operation cb ⟨session, g, tls⟩)
      (transferPath operation cb ⟨session, g', tls⟩) := by
  apply Ignores.bind; intro inPacket
  apply Ignores.bind; intro _
  apply Ignores.bind; intro userDir
  apply Ignores.bind; intro _
  apply Ignores.bind; intro currentDir
  apply Ignores.bind; intro _
  apply Ignores.bind; intro source
  apply Ignores.bind; intro _
  apply Ignores.bind; intro destination
  apply Ignores.bind; intro sourceInside
  apply Ignores.ite (ignores_sample ..)
  apply Ignores.bind; intro destinationInside
  apply Ignores.ite (ignores_sample ..)
  exact Ignores.bind fun done => ignores_sample ..

theorem handlers_ignore {handler : HandlerState → ServerProg HandlerState}
    (hhandler : handlers users fuel receiveBuffer cb ty = some handler)
    (hty : ty.readsGlobal = false) (session : Session) (tls : Buffer) :
    Ignores withGlobal g g' (handler ⟨session, g, tls⟩) (handler ⟨session, g', tls⟩) := by
  induction ty, handler, hhandler using handlers_cases with
  | reqServerStatus =>
      apply Ignores.ite (ignores_sample ..)
      exact Ignores.bind fun p => ignores_respond ..
  | reqConnectionsInfo =>
      apply Ignores.ite (ignores_sample ..)
      exact Ignores.bind fun p => ignores_respond ..
  | reqCrcVerify => exact Ignores.ret (session, tls)
  | reqCurrentDirectory => exact ignores_respond ..
  | reqRemovePath =>
      apply Ignores.bind; intro name
      apply Ignores.ite (ignores_sample ..)
      apply Ignores.bind; intro file
      apply Ignores.ite (ignores_sample ..)
      exact Ignores.bind fun directory => ignores_sample ..
  | reqMkdir =>
      apply Ignores.bind; intro name
      apply Ignores.ite (ignores_sample ..)
      exact Ignores.bind fun made => ignores_sample ..
  | reqChangeWorkingDirectory =>
      apply Ignores.bind; intro path
      apply Ignores.bind; intro newDir
      exact Ignores.ite (ignores_sample ..) (ignores_sample ..)
  | reqFileOpen =>
      apply Ignores.bind; intro name
      apply Ignores.ite (ignores_sample ..)
      apply Ignores.bind; intro filePath
      apply Ignores.bind; intro file
      apply Ignores.ite (ignores_sample ..)
      apply Ignores.bind; intro size
      cases size with
      | none => exact ignores_sample ..
      | some fileSize => exact ignores_respond ..
  | reqFileDownloadChunk =>
      apply Ignores.bind; intro chunk
      apply Ignores.ite
      · exact Ignores.seq (ignores_sample ..) fun _ => ignores_respond ..
      · exact ignores_respond ..
  | reqFileClose =>
      apply Ignores.bind; intro closed
      apply Ignores.ite
      · exact Ignores.bind fun _ => ignores_sample ..
      · exact ignores_sample ..
  | reqMoveFile => exact ignores_transferPath ..
  | reqCopyFile => exact ignores_transferPath ..
  | reqPing => exact ignores_sample ..
  | reqGetCurrentUser => exact ignores_respond ..
  | reqFileTransferStart =>
      apply Ignores.bind; intro name
      apply Ignores.ite (ignores_sample ..)
      exact Ignores.bind fun file => ignores_sample ..
  | reqFileTransferChunk => exact Ignores.bind fun _ => ignores_sample ..
  | reqFileTransferEnd => exact Ignores.bind fun _ => ignores_sample ..
  | reqFileList => exact Ignores.bind fun p => ignores_respond ..
  | reqCompress =>
      apply Ignores.bind; intro archiveName
      apply Ignores.bind; intro listed
      cases listed with
      | none => exact ignores_sample ..
      | some files => exact Ignores.bind fun success => ignores_sample ..
  | reqClean =>
      apply Ignores.ite (ignores_sample ..)
      apply Ignores.bind; intro _
      apply Ignores.bind; intro entries
      exact Ignores.bind fun _ => ignores_sample ..
  | reqLogin => cases hty
  | reqLogout => cases hty
  | reqGetSettings => cases hty
  | reqSetSetting => cases hty

/-- The login is accepted for an ordinary user, if it is. -/
def OrdinaryLogin (users : DatabaseHandler) (cb : ConnectionBuffer) : Prop :=
  ∀ p, PacketLogin.decode cb.buffer = some p → users.login p.username p.password = true →
    users.isAdmin p.username = false

theorem ignores_reqLogin (ordinary : OrdinaryLogin users cb) (session : Session) (tls : Buffer) :
    Ignores withGlobal g g' (reqLogin users cb ⟨session, g, tls⟩)
      (reqLogin users cb ⟨session, g', tls⟩) := by
  unfold reqLogin
  cases hdecode : PacketLogin.decode cb.buffer with
  | none => exact Ignores.fail _
  | some p =>
      simp only [orUndefined, Prog.ret_bind]
      by_cases hlogin : users.login p.username p.password = true
      · simp only [if_pos hlogin, ordinary p hdecode hlogin, Bool.false_eq_true, if_false]
        exact Ignores.bind fun _ => ignores_respond ..
      · simp only [if_neg hlogin]
        exact ignores_sample ..

theorem ignores_reqLogout {session : Session} (hadmin : session.isAdmin = false) (tls : Buffer) :
    Ignores withGlobal g g' (reqLogout ⟨session, g, tls⟩) (reqLogout ⟨session, g', tls⟩) := by
  simp only [reqLogout, hadmin, Bool.false_eq_true, if_false]
  exact ignores_sample ..

/-- Without privilege, and without the login that gives it, no request reads the global state. -/
theorem dispatch_ignores {session : Session} (hadmin : session.isAdmin = false)
    (ordinary : ty = .reqLogin → OrdinaryLogin users cb) (tls : Buffer) :
    Ignores withGlobal g g' (dispatch users fuel ty receiveBuffer cb ⟨session, g, tls⟩)
      (dispatch users fuel ty receiveBuffer cb ⟨session, g', tls⟩) := by
  unfold dispatch
  apply Ignores.ite (ignores_sample ..)
  cases hhandler : handlers users fuel receiveBuffer cb ty with
  | none => exact Ignores.fail _
  | some handler =>
      cases hty : ty.readsGlobal with
      | false => exact handlers_ignore hhandler hty session tls
      | true =>
          unfold PacketType.readsGlobal at hty
          split at hty
          · cases hhandler
            exact ignores_reqLogin (ordinary rfl) session tls
          · cases hhandler
            exact ignores_reqLogout hadmin tls
          · cases hhandler
            simp only [reqGetSettings, hadmin, Bool.not_false, if_true]
            exact ignores_sample ..
          · cases hhandler
            simp only [reqSetSetting, hadmin, Bool.not_false, if_true]
            exact ignores_sample ..
          · cases hty

theorem destroyConnection_ignores {session : Session} (hadmin : session.isAdmin = false) :
    Ignores (fun (_ : Unit) g => g) g g' (destroyConnection session g)
      (destroyConnection session g') := by
  simp only [destroyConnection, hadmin, Bool.false_eq_true, if_false]
  apply Ignores.bind; intro _
  apply Ignores.bind; intro _
  apply Ignores.bind; intro dirPath
  exact Ignores.bind fun _ => Ignores.ret ()

end Handlers

/-! ### Labels -/

/-- The session, and what `k` tells of the global state. -/
def HandlerState.upTo (k : GlobalState → GlobalState) (s : HandlerState) : Session × GlobalState :=
  (s.session, k s.g)

/-- The same step: the same request with the same calls and answers and the same end, up to the
bytes that are left in a response, and to what `k` does not tell of the global state. -/
inductive SameLabel (k : GlobalState → GlobalState) : RequestLabel → RequestLabel → Prop where
  | accept (c : ConnId) (socketFd : Int) : SameLabel k (.accept c socketFd) (.accept c socketFd)
  | packet {c : ConnId} {ty : PacketType} {receiveBuffer tls tls' : Buffer} {cb : ConnectionBuffer}
      {events events' : List ServerEvent} {out out' : Except Fault HandlerState} :
      List.Forall₂ SameCall events events' →
      SameOutcome (fun t t' => t'.upTo k = t.upTo k) out out' →
      SameLabel k (.packet c ty receiveBuffer cb tls events out)
        (.packet c ty receiveBuffer cb tls' events' out')
  | disconnect {c : ConnId} {events events' : List ServerEvent}
      {out out' : Except Fault GlobalState} : List.Forall₂ SameCall events events' →
      SameOutcome (fun g g' => k g' = k g) out out' →
      SameLabel k (.disconnect c events out) (.disconnect c events' out')

/-- No admin is logged in by it. -/
def RequestLabel.Ordinary (users : DatabaseHandler) : RequestLabel → Prop
  | .packet _ .reqLogin _ cb _ _ _ => OrdinaryLogin users cb
  | _ => True

/-! ### Connections of ordinary users -/

/-- None of these connections has the privilege. -/
def NoAdmins (A : ConnId → Prop) (w : RequestState) : Prop :=
  ∀ c, A c → ∀ session, w.live c = some session → session.isAdmin = false

section Steps

variable {users : DatabaseHandler} {A K : ConnId → Prop} {w v s s' t : RequestState}
  {l : RequestLabel}

theorem noAdmins_initial (A : ConnId → Prop) : NoAdmins A .initial := nofun

theorem PacketEffect.ordinary {cb : ConnectionBuffer} {ty : PacketType} {s t : HandlerState}
    (effect : PacketEffect users cb s t ty) (hadmin : s.session.isAdmin = false)
    (ordinary : ty = .reqLogin → OrdinaryLogin users cb) : t.session.isAdmin = false := by
  cases effect with
  | login p hdecode same =>
      rw [same.isAdmin, ← hadmin]
      unfold HandlerState.afterLogin
      by_cases hlogin : users.login p.username p.password = true
      · simp [hlogin, ordinary rfl p hdecode hlogin, Session.loggedIn]
      · simp [hlogin]
  | logout same => exact same.isAdmin.trans hadmin
  | changeDirectory path newDir events hid run hne same => exact same.isAdmin.trans hadmin
  | keep hlogin hlogout same => exact same.isAdmin.trans hadmin

theorem NoAdmins.step (now : NoAdmins A w) (step : RequestStep users w l v)
    (ordinary : A l.connection → l.Ordinary users) : NoAdmins A v := by
  intro d hd session hlive
  by_cases hne : d = l.connection
  swap
  · exact now d hd session ((step.live_of_ne hne).symm.trans hlive)
  subst hne
  cases step with
  | accept hfree =>
      rw [RequestLabel.connection, RequestState.live_next_self] at hlive
      cases hlive
      rfl
  | @packet c ty receiveBuffer tls cb before events out fuel hbefore run hfuel =>
      have hadmin := now c hd before hbefore
      cases out with
      | error e =>
          cases hbefore.symm.trans hlive
          exact hadmin
      | ok u =>
          rw [RequestLabel.connection, Except.map, RequestState.live_next_self] at hlive
          cases hlive
          refine (packet_effect run).ordinary hadmin ?_
          rintro rfl
          exact ordinary hd
  | @disconnect c before events out hbefore run =>
      cases out with
      | error e =>
          cases hbefore.symm.trans hlive
          exact now c hd session hbefore
      | ok g =>
          rw [RequestLabel.connection, Except.map, RequestState.live_next_self] at hlive
          cases hlive

end Steps

/-! ### The run without some steps -/

/-- The same sessions of these connections, and as much of the global state as `k` tells. The
other run may go on longer. -/
structure SameUpTo (K : ConnId → Prop) (k : GlobalState → GlobalState) (s s' : RequestState) :
    Prop where
  live : ∀ c, K c → s'.live c = s.live c
  global : k s'.g = k s.g
  running : s.terminated = false → s'.terminated = false

section SameUpTo

variable {users : DatabaseHandler} {K : ConnId → Prop} {k : GlobalState → GlobalState}
  {s s' t : RequestState} {l : RequestLabel}

theorem SameUpTo.refl (K : ConnId → Prop) (k : GlobalState → GlobalState) (s : RequestState) :
    SameUpTo K k s s :=
  ⟨fun _ _ => rfl, rfl, id⟩

/-- The two steps end alike. -/
theorem SameUpTo.next (h : SameUpTo K k s s') (c : ConnId)
    {out out' : Except Fault (Option Session × GlobalState)}
    (same : SameOutcome (fun a a' => a'.1 = a.1 ∧ k a'.2 = k a.2) out out') :
    SameUpTo K k (s.next c out) (s'.next c out') := by
  cases same with
  | @ok a a' ends =>
      obtain ⟨new, g⟩ := a
      obtain ⟨new', g'⟩ := a'
      obtain ⟨rfl, hg⟩ := ends
      refine ⟨fun d hd => ?_, hg, fun _ => rfl⟩
      by_cases hne : d = c
      · rw [hne, RequestState.live_next_self, RequestState.live_next_self]
      · rw [RequestState.live_next_of_ne _ _ hne, RequestState.live_next_of_ne _ _ hne]
        exact h.live d hd
  | error e => exact ⟨h.live, h.global, nofun⟩

/-- A step of another connection. -/
theorem SameUpTo.hidden (h : SameUpTo K k s s') (running : s.terminated = false)
    (step : RequestStep users s l t) (hl : ¬ K l.connection) (hg : k t.g = k s.g) :
    SameUpTo K k t s' where
  live c hc := (h.live c hc).trans (step.live_of_ne (fun heq => hl (heq ▸ hc))).symm
  global := h.global.trans hg.symm
  running _ := h.running running

/-- A step can be made in the other run, with any response buffer of that version, when its
program follows up to what `k` tells. -/
theorem SameUpTo.follows (h : SameUpTo K k s s') (step : RequestStep users s l t)
    (hl : K l.connection) {b b' : Buffer} (finds : l.Finds b) (version : b 0 = b' 0)
    (packet : ∀ fuel c ty receiveBuffer cb tls events out session,
      l = .packet c ty receiveBuffer cb tls events out → s.live c = some session →
      FollowsUpTo (HandlerState.upTo k)
        (dispatch users fuel ty receiveBuffer cb ⟨session, s.g, tls⟩)
        (dispatch users fuel ty receiveBuffer cb ⟨session, s'.g, tls⟩))
    (disconnect : ∀ session, s.live l.connection = some session →
      FollowsUpTo k (destroyConnection session s.g) (destroyConnection session s'.g)) :
    ∃ l' t', RequestStep users s' l' t' ∧ l'.Finds b' ∧ SameUpTo K k t t' ∧ SameLabel k l l' := by
  cases step with
  | accept hfree =>
      refine ⟨_, _, .accept ((h.live _ hl).trans hfree), trivial, h.next _ ?_, .accept ..⟩
      exact .ok ⟨rfl, h.global⟩
  | @packet c ty receiveBuffer tls cb session events out fuel hlive run hfuel =>
      have htls : tls = b := finds
      subst htls
      -- First the other global state, and then the other buffer.
      have simulates : Simulates SameCall (fun t t' => t'.upTo k = t.upTo k)
          (dispatch users fuel ty receiveBuffer cb ⟨session, s.g, tls⟩)
          (dispatch users fuel ty receiveBuffer cb ⟨session, s'.g, b'⟩) := by
        refine (packet fuel c _ _ _ _ _ _ session rfl hlive).simulates
          (dispatch_simulates version) fun t u v same ends => ?_
        rw [← same, HandlerState.upTo, HandlerState.upTo, ends.1, ends.2]
      obtain ⟨events', out', run', alike, ends⟩ := simulates _ _ run
      have hfuel' : out' ≠ .error .outOfFuel := by
        rintro rfl
        cases ends
        exact hfuel rfl
      refine ⟨_, _, .packet fuel ((h.live c hl).trans hlive) run' hfuel', rfl, h.next c ?_,
        .packet alike ends⟩
      refine ends.map fun t t' same => ?_
      obtain ⟨hsession, hg⟩ := Prod.mk.inj same
      exact ⟨congrArg some hsession, hg⟩
  | @disconnect c session events out hlive run =>
      obtain ⟨out', run', same⟩ := disconnect session hlive _ _ run
      have ends : SameOutcome (fun g g' => k g' = k g) out out' := .of_map same
      refine ⟨_, _, .disconnect ((h.live c hl).trans hlive) run', trivial, h.next c ?_,
        .disconnect (List.forall₂_refl events) ends⟩
      exact ends.map fun g g' hg => ⟨rfl, hg⟩

end SameUpTo

/-- The sessions of two runs of workers, whose buffers may differ but for the version. -/
structure SameSessions (K : ConnId → Prop) (k : GlobalState → GlobalState) (w w' : ServingState) :
    Prop where
  requests : SameUpTo K k w.requests w'.requests
  versions : VersionsZero w
  versions' : VersionsZero w'

section SameSessions

variable {users : DatabaseHandler} {K : ConnId → Prop} {k : GlobalState → GlobalState}
  {w w' v : ServingState} {l : ServingLabel}

theorem SameSessions.initial (K : ConnId → Prop) (k : GlobalState → GlobalState) :
    SameSessions K k .initial .initial :=
  ⟨.refl K k _, fun _ => rfl, fun _ => rfl⟩

/-- A step that is taken out. -/
theorem SameSessions.hidden (h : SameSessions K k w w') (step : ServingStep users w l v)
    (requests : SameUpTo K k v.requests w'.requests) : SameSessions K k v w' :=
  ⟨requests, h.versions.step step, h.versions'⟩

/-- A step that stays is made by the same worker. -/
theorem SameSessions.follows (h : SameSessions K k w w') (running : w.requests.terminated = false)
    (step : ServingStep users w l v) (hl : K l.request.connection)
    (packet : ∀ fuel c ty receiveBuffer cb tls events out session,
      l.request = .packet c ty receiveBuffer cb tls events out →
      w.requests.live c = some session →
      FollowsUpTo (HandlerState.upTo k)
        (dispatch users fuel ty receiveBuffer cb ⟨session, w.requests.g, tls⟩)
        (dispatch users fuel ty receiveBuffer cb ⟨session, w'.requests.g, tls⟩))
    (disconnect : ∀ session, w.requests.live l.request.connection = some session →
      FollowsUpTo k (destroyConnection session w.requests.g)
        (destroyConnection session w'.requests.g)) :
    ∃ l' v', (workerSystem users).step w' l' v' ∧ SameSessions K k v v' ∧
      l'.worker = l.worker ∧ SameLabel k l.request l'.request := by
  have version : w.buffers l.worker 0 = w'.buffers l.worker 0 :=
    (h.versions l.worker).trans (h.versions' l.worker).symm
  obtain ⟨request, requests, made, finds, next, looks⟩ :=
    h.requests.follows step.request hl step.finds version packet disconnect
  have step' := made.ofWorker l.worker finds
  exact ⟨_, _, ⟨h.requests.running running, step'⟩,
    ⟨next, h.versions.step step, h.versions'.step step'⟩, rfl, looks⟩

end SameSessions

/-- What is kept of a run of workers is a run of theirs. It ends in the same sessions of `K`, and
its labels are the same: the workers, the requests, the calls and answers, and the responses but
for bytes that their builders leave, up to what `k` does not tell of the global state. -/
def Remains (users : DatabaseHandler) (keep : RequestLabel → Prop) [DecidablePred keep]
    (K : ConnId → Prop) (k : GlobalState → GlobalState)
    (moves : List (Move ServingState ServingLabel)) (w : ServingState) : Prop :=
  ∃ moves' w', Run (workerSystem users) .initial moves' w' ∧
    SameUpTo K k w.requests w'.requests ∧
    List.Forall₂ (fun m m' => m'.label.worker = m.label.worker ∧
        SameLabel k m.label.request m'.label.request)
      (moves.filter fun m => keep m.label.request) moves'

/-! ### The others -/

section Others

variable {users : DatabaseHandler} {K : ConnId → Prop} [DecidablePred K]
  {moves : List (Move ServingState ServingLabel)} {s t : RequestState} {w : ServingState}
  {l : RequestLabel}

/-- The step of an ordinary user leaves the global state. -/
theorem RequestStep.global_eq (step : RequestStep users s l t)
    (ordinary : ∀ session, s.live l.connection = some session → session.isAdmin = false)
    (hordinary : l.Ordinary users) : t.g = s.g := by
  cases step with
  | accept hfree => rfl
  | @packet c ty receiveBuffer tls cb session events out fuel hlive run hfuel =>
      have alone : ty = .reqLogin → OrdinaryLogin users cb := by
        rintro rfl
        exact hordinary
      obtain ⟨end_, rfl, -⟩ := Ignores.exec (show Ignores withGlobal s.g s.g _ _ from
        dispatch_ignores (ordinary session hlive) alone tls) run
      cases end_ <;> rfl
  | @disconnect c session events out hlive run =>
      obtain ⟨end_, rfl, -⟩ := Ignores.exec (show Ignores _ s.g s.g _ _ from
        destroyConnection_ignores (ordinary session hlive)) run
      cases end_ <;> rfl

/-- Nothing of the global state. -/
def unknown : GlobalState → GlobalState := fun _ => .initial

theorem remains_of_ordinary (run : Run (workerSystem users) .initial moves w)
    (ordinary : ∀ m ∈ moves, K m.label.request.connection → m.label.request.Ordinary users) :
    Remains users (fun l => K l.connection) K unknown moves w := by
  have silent : ∀ s (l : ServingLabel) t s', SameSessions K unknown s s' ∧ NoAdmins K s.requests →
      (K l.request.connection → l.request.Ordinary users) → (workerSystem users).step s l t →
      ¬ K l.request.connection → SameSessions K unknown t s' ∧ NoAdmins K t.requests := by
    rintro s l t s' ⟨same, now⟩ ok ⟨running, step⟩ hl
    exact ⟨same.hidden step (same.requests.hidden running step.request hl rfl),
      now.step step.request ok⟩
  have follows : ∀ s (l : ServingLabel) t s', SameSessions K unknown s s' ∧ NoAdmins K s.requests →
      (K l.request.connection → l.request.Ordinary users) → (workerSystem users).step s l t →
      K l.request.connection → ∃ l' t', (workerSystem users).step s' l' t' ∧
        (SameSessions K unknown t t' ∧ NoAdmins K t.requests) ∧
          l'.worker = l.worker ∧ SameLabel unknown l.request l'.request := by
    rintro s l t s' ⟨same, now⟩ ok ⟨running, step⟩ hl
    have packet : ∀ fuel c ty receiveBuffer cb tls events out session,
        l.request = .packet c ty receiveBuffer cb tls events out →
        s.requests.live c = some session →
        FollowsUpTo (HandlerState.upTo unknown)
          (dispatch users fuel ty receiveBuffer cb ⟨session, s.requests.g, tls⟩)
          (dispatch users fuel ty receiveBuffer cb ⟨session, s'.requests.g, tls⟩) := by
      intro fuel c ty receiveBuffer cb tls events out session hrequest hlive
      rw [hrequest] at hl ok
      have alone : ty = .reqLogin → OrdinaryLogin users cb := by
        rintro rfl
        exact ok hl
      exact (dispatch_ignores (now c hl session hlive) alone tls).followsUpTo fun _ => rfl
    obtain ⟨l', t', step', next, looks⟩ := same.follows running step hl packet
      fun session hlive =>
        (destroyConnection_ignores (now _ hl session hlive)).followsUpTo fun _ => rfl
    exact ⟨l', t', step', ⟨next, now.step step.request ok⟩, looks⟩
  obtain ⟨moves', w', run', ⟨same, -⟩, hlabels⟩ :=
    run.purge silent follows ⟨.initial K unknown, noAdmins_initial K⟩ ordinary
  exact ⟨moves', w', run', same.requests, hlabels⟩

theorem remains_of_others_ordinary (run : Run (workerSystem users) .initial moves w)
    (ordinary : ∀ m ∈ moves, ¬ K m.label.request.connection → m.label.request.Ordinary users) :
    Remains users (fun l => K l.connection) K id moves w := by
  have silent : ∀ s (l : ServingLabel) t s', SameSessions K id s s' ∧ NoAdmins (¬ K ·) s.requests →
      (¬ K l.request.connection → l.request.Ordinary users) → (workerSystem users).step s l t →
      ¬ K l.request.connection → SameSessions K id t s' ∧ NoAdmins (¬ K ·) t.requests := by
    rintro s l t s' ⟨same, now⟩ ok ⟨running, step⟩ hl
    have hg : t.requests.g = s.requests.g := step.request.global_eq (now _ hl) (ok hl)
    exact ⟨same.hidden step (same.requests.hidden running step.request hl hg),
      now.step step.request ok⟩
  have follows : ∀ s (l : ServingLabel) t s', SameSessions K id s s' ∧ NoAdmins (¬ K ·) s.requests →
      (¬ K l.request.connection → l.request.Ordinary users) → (workerSystem users).step s l t →
      K l.request.connection → ∃ l' t', (workerSystem users).step s' l' t' ∧
        (SameSessions K id t t' ∧ NoAdmins (¬ K ·) t.requests) ∧
          l'.worker = l.worker ∧ SameLabel id l.request l'.request := by
    rintro s l t s' ⟨same, now⟩ ok ⟨running, step⟩ hl
    have hg : s'.requests.g = s.requests.g := same.requests.global
    obtain ⟨l', t', step', next, looks⟩ := same.follows running step hl
      (fun _ _ _ _ _ _ _ _ _ _ _ => hg ▸ .refl _ _) fun _ _ => hg ▸ .refl _ _
    exact ⟨l', t', step', ⟨next, now.step step.request ok⟩, looks⟩
  obtain ⟨moves', w', run', ⟨same, -⟩, hlabels⟩ :=
    run.purge silent follows ⟨.initial K id, noAdmins_initial _⟩ ordinary
  exact ⟨moves', w', run', same.requests, hlabels⟩

/-- To ordinary users all others are unseen, and to all others ordinary users are: what is left
of a run without them is a run of the same workers with the same requests, calls, answers and
sessions, and with the same responses up to the bytes that their builders leave. These bytes do
tell of earlier requests of the worker, whoever made them. The requests come one at a time, and
how the steps of a handler are spread in time is not looked at. -/
theorem others_unseen (run : Run (workerSystem users) .initial moves w) :
    ((∀ m ∈ moves, K m.label.request.connection → m.label.request.Ordinary users) →
        Remains users (fun l => K l.connection) K unknown moves w) ∧
      ((∀ m ∈ moves, ¬ K m.label.request.connection → m.label.request.Ordinary users) →
        Remains users (fun l => K l.connection) K id moves w) :=
  ⟨remains_of_ordinary run, remains_of_others_ordinary run⟩

end Others

/-- The root logs in on connection 0, and there is no other. -/
theorem exists_rootLogin_alone :
    ∃ moves w, Run (workerSystem exampleUsers) .initial moves w ∧ w.requests.terminated = false ∧
      w.requests.live 0 = some rootSession ∧ w.requests.live 1 = none ∧
      w.requests.g = adminConnected ∧ ∀ m ∈ moves, m.label.request.connection = 0 := by
  obtain ⟨events, t, login, hsession, hg⟩ := exec_reqLogin exampleUsers decode_rootLogin
    ⟨.accepted 5, .initial, Buffer.zero⟩
  rw [afterLogin_root.1] at hsession
  rw [afterLogin_root.2] at hg
  have accepted : ServingStep exampleUsers .initial ⟨0, .accept 0 5⟩ _ := .accept 0 5 rfl
  have loggedIn : RequestStep exampleUsers
      (RequestState.initial.next 0 (.ok (some (.accepted 5), .initial)))
      (.packet 0 .reqLogin Buffer.zero (loginPacket 0 (ascii "root") (ascii "a")) Buffer.zero
        events (.ok t)) _ := .packet 0 (RequestState.live_next_self ..) login (by simp)
  have run : Run (workerSystem exampleUsers) .initial _ _ :=
    .cons ⟨rfl, accepted⟩ (.one ⟨rfl, loggedIn.ofWorker (w := ⟨_, fun _ => Buffer.zero⟩) 0 rfl⟩)
  refine ⟨_, _, run, rfl, ?_, rfl, hg, ?_⟩
  · rw [← hsession]
    exact RequestState.live_next_self ..
  · exact List.forall_mem_cons.mpr ⟨rfl, List.forall_mem_singleton.mpr rfl⟩

/-- A ping while the root is logged in on another connection. -/
theorem others_unseen_ping :
    ∃ moves w, Run (workerSystem exampleUsers) .initial moves w ∧
      w.requests.g = adminConnected ∧
      (∃ m ∈ moves, ∃ tls events out, m.label.request =
        .packet 1 .reqPing Buffer.zero ⟨1, []⟩ tls events out) ∧
      Remains exampleUsers (fun l => l.connection = 1) (· = 1) unknown moves w := by
  obtain ⟨moves, w, login, running, -, hfree, hg, hroot⟩ := exists_rootLogin_alone
  have accepted : ServingStep exampleUsers w ⟨0, .accept 1 6⟩ _ := .accept 0 6 hfree
  have pinged : RequestStep exampleUsers
      (w.requests.next 1 (.ok (some (.accepted 6), w.requests.g)))
      (.packet 1 .reqPing Buffer.zero ⟨1, []⟩ (w.buffers 0) _ _) _ :=
    .packet 0 (RequestState.live_next_self ..)
      (exec_respond ⟨.accepted 6, w.requests.g, w.buffers 0⟩ _ _) (by simp)
  have run := login.append
    (.cons ⟨running, accepted⟩ (.one ⟨rfl, pinged.ofWorker (w := ⟨_, w.buffers⟩) 0 rfl⟩))
  refine ⟨_, _, run, hg, ⟨_, List.mem_append_right _ (.tail _ (.head _)), _, _, _, rfl⟩,
    (others_unseen run).1 fun m hm hone => ?_⟩
  rcases List.mem_append.mp hm with hbefore | hafter
  · rw [hroot m hbefore] at hone
    cases hone
  · rcases List.mem_cons.mp hafter with rfl | hlast
    · trivial
    · cases List.mem_singleton.mp hlast
      trivial

/-! ### The setting -/

/-- `COMPRESSION_LEVEL` is shown and set. -/
def PacketType.isSetting : PacketType → Bool
  | .reqGetSettings | .reqSetSetting => true
  | _ => false

def RequestLabel.isSetting : RequestLabel → Bool
  | .packet _ packetType _ _ _ _ _ => packetType.isSetting
  | _ => false

/-- A state with a setting. -/
def withLevel (a : Session × Buffer × Bool) (level : UInt8) : HandlerState :=
  ⟨a.1, ⟨a.2.2, level⟩, a.2.1⟩

/-- All but the setting. -/
def hideLevel (g : GlobalState) : GlobalState := { g with compressionLevel := 0 }

section Setting

variable {users : DatabaseHandler} {fuel : Nat} {receiveBuffer : Buffer} {cb : ConnectionBuffer}
  {ty : PacketType} {level level' : UInt8} {s t : RequestState} {l : RequestLabel}

theorem ignoresLevel_respond (session : Session) (connected : Bool) (tls p : Buffer)
    (length : Nat) :
    Ignores withLevel level level'
      (HandlerState.respond ⟨session, ⟨connected, level⟩, tls⟩ p length)
      (HandlerState.respond ⟨session, ⟨connected, level'⟩, tls⟩ p length) :=
  .bind fun _ => .ret (session, p, connected)

theorem ignoresLevel_sample (session : Session) (connected : Bool) (tls : Buffer)
    (answer : PacketType) :
    Ignores withLevel level level' (sendSampleResp ⟨session, ⟨connected, level⟩, tls⟩ answer)
      (sendSampleResp ⟨session, ⟨connected, level'⟩, tls⟩ answer) :=
  ignoresLevel_respond session connected tls _ _

theorem ignoresLevel_reqLogin (session : Session) (connected : Bool) (tls : Buffer) :
    Ignores withLevel level level' (reqLogin users cb ⟨session, ⟨connected, level⟩, tls⟩)
      (reqLogin users cb ⟨session, ⟨connected, level'⟩, tls⟩) := by
  apply Ignores.bind; intro p
  apply Ignores.ite
  · apply Ignores.bind; intro _
    apply Ignores.ite
    · apply Ignores.ite
      · exact ignoresLevel_sample ..
      · exact ignoresLevel_respond ..
    · exact ignoresLevel_respond ..
  · exact ignoresLevel_sample ..

theorem ignoresLevel_reqLogout (session : Session) (connected : Bool) (tls : Buffer) :
    Ignores withLevel level level' (reqLogout ⟨session, ⟨connected, level⟩, tls⟩)
      (reqLogout ⟨session, ⟨connected, level'⟩, tls⟩) := by
  unfold reqLogout
  cases session.isAdmin with
  | true => exact ignoresLevel_sample ..
  | false => exact ignoresLevel_sample ..

/-- No request but those about the setting looks at it. -/
theorem dispatch_ignoresLevel (hty : ty.isSetting = false) (session : Session) (connected : Bool)
    (tls : Buffer) :
    Ignores withLevel level level'
      (dispatch users fuel ty receiveBuffer cb ⟨session, ⟨connected, level⟩, tls⟩)
      (dispatch users fuel ty receiveBuffer cb ⟨session, ⟨connected, level'⟩, tls⟩) := by
  unfold dispatch
  apply Ignores.ite (ignoresLevel_sample ..)
  cases hhandler : handlers users fuel receiveBuffer cb ty with
  | none => exact Ignores.fail _
  | some handler =>
      cases hglobal : ty.readsGlobal with
      | false =>
          exact (handlers_ignore hhandler hglobal session tls).part
            (fun a => (a.1, a.2, connected)) fun _ _ => rfl
      | true =>
          unfold PacketType.readsGlobal at hglobal
          split at hglobal
          · cases hhandler
            exact ignoresLevel_reqLogin ..
          · cases hhandler
            exact ignoresLevel_reqLogout ..
          · cases hty
          · cases hty
          · cases hglobal

theorem destroyConnection_ignoresLevel (session : Session) (connected : Bool) :
    Ignores GlobalState.mk level level' (destroyConnection session ⟨connected, level⟩)
      (destroyConnection session ⟨connected, level'⟩) := by
  unfold destroyConnection
  apply Ignores.bind; intro _
  apply Ignores.bind; intro _
  apply Ignores.bind; intro dirPath
  apply Ignores.bind; intro _
  cases session.isAdmin with
  | true => exact Ignores.ret false
  | false => exact Ignores.ret connected

theorem hideLevel_parse (p : SetSettingPacket) (g : GlobalState) :
    hideLevel (parseSetingPacketAndSet p g) = hideLevel g := by
  unfold parseSetingPacketAndSet
  split <;> rfl

/-- A request about the setting changes nothing else. -/
theorem exec_setting (hty : ty.isSetting = true) {s t : HandlerState} {events : List ServerEvent}
    (run : Exec (dispatch users fuel ty receiveBuffer cb s) events (.ok t)) :
    t.session = s.session ∧ hideLevel t.g = hideLevel s.g := by
  have answered {u : HandlerState} {p : Buffer} {length : Nat}
      (run : Exec (u.respond p length) events (.ok t)) : t.session = u.session ∧ t.g = u.g := by
    obtain ⟨-, hout⟩ := exec_respond_iff.mp run
    cases hout
    exact ⟨rfl, rfl⟩
  rcases dispatch_cases run with ⟨-, -, refused⟩ | ⟨-, -, -, hfail⟩ | ⟨handler, -, hhandler, run⟩
  · obtain ⟨hsession, hg⟩ := answered refused
    exact ⟨hsession, congrArg hideLevel hg⟩
  · cases hfail
  · unfold PacketType.isSetting at hty
    split at hty
    · cases hhandler
      unfold reqGetSettings at run
      split at run
      · obtain ⟨hsession, hg⟩ := answered run
        exact ⟨hsession, congrArg hideLevel hg⟩
      · obtain ⟨hsession, hg⟩ := answered run
        exact ⟨hsession, congrArg hideLevel hg⟩
    · cases hhandler
      unfold reqSetSetting at run
      split at run
      · obtain ⟨hsession, hg⟩ := answered run
        exact ⟨hsession, congrArg hideLevel hg⟩
      · obtain ⟨hsession, hg⟩ := answered run
        exact ⟨hsession, (congrArg hideLevel hg).trans (hideLevel_parse ..)⟩
    · cases hty

theorem RequestStep.setting (step : RequestStep users s l t) (hl : l.isSetting = true) :
    (∀ c, t.live c = s.live c) ∧ hideLevel t.g = hideLevel s.g := by
  cases step with
  | accept hfree => cases hl
  | @packet c ty receiveBuffer tls cb session events out fuel hlive run hfuel =>
      cases out with
      | error e => exact ⟨fun _ => rfl, rfl⟩
      | ok u =>
          obtain ⟨hsession, hg⟩ := exec_setting hl run
          refine ⟨fun d => ?_, hg⟩
          by_cases hne : d = c
          · rw [hne, hlive, Except.map, RequestState.live_next_self, hsession]
          · exact RequestState.live_next_of_ne _ _ hne
  | disconnect hlive run => cases hl

/-- Where all but the setting is the same, the other requests have the same runs. -/
theorem dispatch_followsUpTo_level {g g' : GlobalState} (hg : hideLevel g' = hideLevel g)
    (hty : ty.isSetting = false) (session : Session) (tls : Buffer) :
    FollowsUpTo (HandlerState.upTo hideLevel)
      (dispatch users fuel ty receiveBuffer cb ⟨session, g, tls⟩)
      (dispatch users fuel ty receiveBuffer cb ⟨session, g', tls⟩) := by
  obtain ⟨connected, level⟩ := g
  obtain ⟨connected', level'⟩ := g'
  obtain rfl : connected' = connected := congrArg GlobalState.bAdminConnected hg
  exact (dispatch_ignoresLevel hty session connected' tls).followsUpTo fun _ => rfl

theorem destroyConnection_followsUpTo_level {g g' : GlobalState}
    (hg : hideLevel g' = hideLevel g) (session : Session) :
    FollowsUpTo hideLevel (destroyConnection session g) (destroyConnection session g') := by
  obtain ⟨connected, level⟩ := g
  obtain ⟨connected', level'⟩ := g'
  obtain rfl : connected' = connected := congrArg GlobalState.bAdminConnected hg
  exact (destroyConnection_ignoresLevel session connected').followsUpTo fun _ => rfl

/-- The setting is not used: without the requests about it, what is left of a run is a run of the
same workers with the same requests, calls, answers and sessions, and with the same responses up
to the bytes that their builders leave. The answer to a request for the setting leaves it in the
worker's buffer, and these bytes do tell of it. -/
theorem setting_unused {moves : List (Move ServingState ServingLabel)} {w : ServingState}
    (run : Run (workerSystem users) .initial moves w) :
    Remains users (fun l => l.isSetting = false) (fun _ => True) hideLevel moves w := by
  have silent : ∀ s (l : ServingLabel) t s', SameSessions (fun _ => True) hideLevel s s' → True →
      (workerSystem users).step s l t → ¬ l.request.isSetting = false →
      SameSessions (fun _ => True) hideLevel t s' := by
    rintro s l t s' same - ⟨running, step⟩ hl
    obtain ⟨hlive, hg⟩ := step.request.setting (eq_true_of_ne_false hl)
    exact same.hidden step
      ⟨fun c hc => (same.requests.live c hc).trans (hlive c).symm,
        same.requests.global.trans hg.symm, fun _ => same.requests.running running⟩
  have follows : ∀ s (l : ServingLabel) t s', SameSessions (fun _ => True) hideLevel s s' → True →
      (workerSystem users).step s l t → l.request.isSetting = false →
      ∃ l' t', (workerSystem users).step s' l' t' ∧
        SameSessions (fun _ => True) hideLevel t t' ∧
          l'.worker = l.worker ∧ SameLabel hideLevel l.request l'.request := by
    rintro s l t s' same - ⟨running, step⟩ hl
    have packet : ∀ fuel c ty receiveBuffer cb tls events out session,
        l.request = .packet c ty receiveBuffer cb tls events out →
        s.requests.live c = some session →
        FollowsUpTo (HandlerState.upTo hideLevel)
          (dispatch users fuel ty receiveBuffer cb ⟨session, s.requests.g, tls⟩)
          (dispatch users fuel ty receiveBuffer cb ⟨session, s'.requests.g, tls⟩) := by
      intro fuel c ty receiveBuffer cb tls events out session hrequest _
      rw [hrequest] at hl
      exact dispatch_followsUpTo_level same.requests.global hl session tls
    exact same.follows running step trivial packet
      fun session _ => destroyConnection_followsUpTo_level same.requests.global session
  obtain ⟨moves', w', run', same, hlabels⟩ :=
    run.purge silent follows (.initial _ _) fun _ _ => trivial
  exact ⟨moves', w', run', same.requests, hlabels⟩

end Setting

/-- The root sets it to 0. -/
theorem setting_unused_root :
    ∃ moves w, Run (workerSystem exampleUsers) .initial moves w ∧
      w.requests.live 0 = some rootSession ∧
      w.requests.g = { adminConnected with compressionLevel := 0 } ∧
      Remains exampleUsers (fun l => l.isSetting = false) (fun _ => True) hideLevel moves w := by
  obtain ⟨moves, w, login, running, hlive, -, hg, -⟩ := exists_rootLogin_alone
  have served : Exec (dispatch exampleUsers 0 .reqSetSetting Buffer.zero ⟨0, []⟩
      ⟨rootSession, w.requests.g, w.buffers 0⟩) _ _ := exec_respond ⟨rootSession,
        parseSetingPacketAndSet (SetSettingPacket.decode Buffer.zero) w.requests.g,
        w.buffers 0⟩ _ _
  have set : RequestStep exampleUsers w.requests
      (.packet 0 .reqSetSetting Buffer.zero ⟨0, []⟩ (w.buffers 0) _ _) _ :=
    .packet 0 hlive served (by simp)
  have run := login.append (.one ⟨running, set.ofWorker 0 rfl⟩)
  refine ⟨_, _, run, RequestState.live_next_self .., ?_, setting_unused run⟩
  show parseSetingPacketAndSet (SetSettingPacket.decode Buffer.zero) w.requests.g = _
  rw [hg]
  rfl

end ConcurrentTcp
