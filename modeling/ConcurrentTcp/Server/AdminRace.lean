import ConcurrentTcp.Server.AdminPrivilege

/-!
The single admin, with handlers on several workers.

A login handler loads `b_admin_connected` and stores it later; a logout handler
stores it and clears the id later. `raceSystem` interleaves these halves for any
number of connections. `Agreement` is what must hold once the handlers in
progress have finished: at most one admin, and the flag set exactly when there
is one. `race_step_iff` gives the steps that keep it. `one_admin_iff` says of a run that
every state it reaches settles so exactly when all its steps are among these, and that
its states without a handler in progress then have at most one admin.
-/

namespace ConcurrentTcp

open Interaction Transition

/-! ### A flag and its holder -/

section Holder

variable {ι : Type} {P P' : ι → Prop} {F F' : Prop} {c : ι}

/-- At most one index holds, and the flag says whether one does. -/
def HeldByOne (P : ι → Prop) (F : Prop) : Prop :=
  (∀ c d, P c → P d → c = d) ∧ (F ↔ ∃ c, P c)

theorem HeldByOne.congr (hP : ∀ d, P' d ↔ P d) (hF : F' ↔ F) :
    HeldByOne P' F' ↔ HeldByOne P F := by
  simp only [HeldByOne, hP, hF]

/-- The index `c` holds after the change and the flag is set: nobody else may. -/
theorem heldByOne_gain_iff (others : ∀ d, d ≠ c → (P' d ↔ P d))
    (gained : P' c) (flag : F') : HeldByOne P' F' ↔ ∀ d, d ≠ c → ¬ P d := by
  constructor
  · intro now d hd hold
    exact hd (now.1 d c ((others d hd).mpr hold) gained)
  · intro alone
    have only : ∀ d, P' d → d = c := by
      intro d hold
      by_contra hd
      exact alone d hd ((others d hd).mp hold)
    exact ⟨fun d e hd he => (only d hd).trans (only e he).symm, iff_of_true flag ⟨c, gained⟩⟩

/-- The index `c` does not hold after the change: the flag must tell of another. -/
theorem HeldByOne.lose_iff (h : HeldByOne P F) (others : ∀ d, d ≠ c → (P' d ↔ P d))
    (lost : ¬ P' c) : HeldByOne P' F' ↔ (F' ↔ ∃ d, d ≠ c ∧ P d) := by
  have remaining : (∃ d, P' d) ↔ ∃ d, d ≠ c ∧ P d := by
    constructor
    · rintro ⟨d, hd⟩
      have hne : d ≠ c := fun heq => lost (heq ▸ hd)
      exact ⟨d, hne, (others d hne).mp hd⟩
    · rintro ⟨d, hne, hd⟩
      exact ⟨d, (others d hne).mpr hd⟩
  have unique : ∀ d e, P' d → P' e → d = e := by
    intro d e hd he
    have hdc : d ≠ c := fun heq => lost (heq ▸ hd)
    have hec : e ≠ c := fun heq => lost (heq ▸ he)
    exact h.1 d e ((others d hdc).mp hd) ((others e hec).mp he)
  unfold HeldByOne
  rw [remaining]
  exact ⟨fun now => now.2, fun now => ⟨unique, now⟩⟩

/-- Whether another than `c` holds, told from the flag. -/
theorem HeldByOne.other_iff (h : HeldByOne P F) : (∃ d, d ≠ c ∧ P d) ↔ F ∧ ¬ P c := by
  constructor
  · rintro ⟨d, hne, hd⟩
    exact ⟨h.2.mpr ⟨d, hd⟩, fun hc => hne (h.1 d c hd hc)⟩
  · rintro ⟨hF, hc⟩
    obtain ⟨d, hd⟩ := h.2.mp hF
    exact ⟨d, fun heq => hc (heq ▸ hd), hd⟩

/-- With the flag unchanged, `c` must hold as before. -/
theorem HeldByOne.same_flag_iff (h : HeldByOne P F) (others : ∀ d, d ≠ c → (P' d ↔ P d)) :
    HeldByOne P' F ↔ (P' c ↔ P c) := by
  by_cases after : P' c
  · by_cases before : P c
    · refine iff_of_true ?_ (iff_of_true after before)
      refine (HeldByOne.congr (fun d => ?_) Iff.rfl).mpr h
      by_cases hd : d = c
      · subst hd
        exact iff_of_true after before
      · exact others d hd
    · refine iff_of_false (fun now => ?_) (fun same => before (same.mp after))
      obtain ⟨d, hd, hold⟩ := h.other_iff.mpr ⟨now.2.mpr ⟨c, after⟩, before⟩
      exact hd (now.1 d c ((others d hd).mpr hold) after)
  · rw [h.lose_iff others after, h.other_iff]
    constructor
    · intro flag
      apply iff_of_false after
      intro before
      exact (flag.mp (h.2.mpr ⟨c, before⟩)).2 before
    · intro same
      have before : ¬ P c := fun hold => after (same.mpr hold)
      exact ⟨fun hF => ⟨hF, before⟩, fun hF => hF.1⟩

end Holder

/-! ### Interleaved handlers -/

/-- Sessions, with the login handlers that have loaded a clear flag and will set
it (`passed`) and the logout handlers that will clear the id (`leaving`). -/
structure RaceState extends SessionState where
  passed : List ConnId
  leaving : List ConnId

inductive RaceLabel where
  | accept (c : ConnId) (socketFd : Int)
  | load (c : ConnId) (p : PacketLogin)
  | exchange (c : ConnId)
  | logoutBegin (c : ConnId)
  | logoutEnd (c : ConnId)
  | other (c : ConnId)
  | disconnect (c : ConnId)

/-- Replace a session. -/
def RaceState.put (w : RaceState) (c : ConnId) (session : Option Session) : RaceState :=
  { w with live := Function.update w.live c session }

/-- The login handler has loaded a clear flag. -/
def RaceState.pass (w : RaceState) (c : ConnId) (session : Session) : RaceState :=
  { w.put c (some session) with passed := c :: w.passed }

/-- `exchange(true)` and `is_admin = true`. -/
def RaceState.register (w : RaceState) (c : ConnId) (session : Session) : RaceState :=
  { w.put c (some { session with isAdmin := true }) with
    g := { w.g with bAdminConnected := true }
    passed := w.passed.erase c }

/-- The logout handler has reset the flag. -/
def RaceState.leave (w : RaceState) (c : ConnId) (session : Session) : RaceState :=
  { w with g := w.g.afterLeave session, leaving := c :: w.leaving }

/-- `id.clear()` -/
def RaceState.clearId (w : RaceState) (c : ConnId) (session : Session) : RaceState :=
  { w.put c (some { session with id := [] }) with leaving := w.leaving.erase c }

/-- Handlers of any connections interleave. What follows the destruction of a
connection with a handler in progress is undefined, so there is no such step. -/
inductive RaceStep (users : DatabaseHandler) : RaceState → RaceLabel → RaceState → Prop where
  | accept {w : RaceState} {c : ConnId} {socketFd : Int} : w.live c = none →
      RaceStep users w (.accept c socketFd) (w.put c (some (.accepted socketFd)))
  | badLogin {w : RaceState} {c : ConnId} {session : Session} {p : PacketLogin} :
      w.live c = some session → users.login p.username p.password = false →
      RaceStep users w (.load c p) w
  | userLogin {w : RaceState} {c : ConnId} {session : Session} {p : PacketLogin} :
      w.live c = some session → users.login p.username p.password = true →
      users.isAdmin p.username = false →
      RaceStep users w (.load c p) (w.put c (some (session.loggedIn users p.username)))
  | rejected {w : RaceState} {c : ConnId} {session : Session} {p : PacketLogin} :
      w.live c = some session → users.login p.username p.password = true →
      users.isAdmin p.username = true → w.g.bAdminConnected = true →
      RaceStep users w (.load c p) (w.put c (some (session.loggedIn users p.username).rejected))
  | passed {w : RaceState} {c : ConnId} {session : Session} {p : PacketLogin} :
      w.live c = some session → users.login p.username p.password = true →
      users.isAdmin p.username = true → w.g.bAdminConnected = false →
      RaceStep users w (.load c p) (w.pass c (session.loggedIn users p.username))
  | exchange {w : RaceState} {c : ConnId} {session : Session} :
      w.live c = some session → c ∈ w.passed →
      RaceStep users w (.exchange c) (w.register c session)
  | logoutBegin {w : RaceState} {c : ConnId} {session : Session} : w.live c = some session →
      RaceStep users w (.logoutBegin c) (w.leave c session)
  | logoutEnd {w : RaceState} {c : ConnId} {session : Session} :
      w.live c = some session → c ∈ w.leaving →
      RaceStep users w (.logoutEnd c) (w.clearId c session)
  | other {w : RaceState} {c : ConnId} {session new : Session} {g : GlobalState} :
      w.live c = some session → new.id = session.id → new.isAdmin = session.isAdmin →
      g.bAdminConnected = w.g.bAdminConnected →
      RaceStep users w (.other c) { w.put c (some new) with g := g }
  | disconnect {w : RaceState} {c : ConnId} {session : Session} : w.live c = some session →
      c ∉ w.passed → c ∉ w.leaving →
      RaceStep users w (.disconnect c) { w.put c none with g := w.g.afterLeave session }

/-- No handler is in progress. -/
def SessionState.quiet (w : SessionState) : RaceState := { w with passed := [], leaving := [] }

def raceSystem (users : DatabaseHandler) : System RaceState RaceLabel where
  init := fun w => w = SessionState.initial.quiet
  step := RaceStep users

/-! ### Agreement once the handlers in progress have finished -/

/-- The connection is the admin once its handlers in progress have finished. -/
def RaceState.WillBeAdmin (w : RaceState) (c : ConnId) : Prop :=
  ∃ session, w.live c = some session ∧ session.id ≠ [] ∧ c ∉ w.leaving ∧
    (session.isAdmin = true ∨ c ∈ w.passed)

/-- The flag is set once the handlers in progress have finished. -/
def RaceState.FlagWillBeSet (w : RaceState) : Prop :=
  w.g.bAdminConnected = true ∨ w.passed ≠ []

/-- At most one admin, and the flag tells whether there is one, once the
handlers in progress have finished. -/
def RaceState.Agreement (w : RaceState) : Prop := HeldByOne w.WillBeAdmin w.FlagWillBeSet

/-- A leaving connection must be the only admin, or leave the flag as it is. -/
def LeaveOk (w : RaceState) (c : ConnId) : Prop :=
  ∀ session, w.live c = some session →
    (w.WillBeAdmin c → session.isAdmin = true ∧ w.passed = []) ∧
      (¬ w.WillBeAdmin c → session.isAdmin = true →
        w.g.bAdminConnected = false ∨ w.passed ≠ [])

/-- What an accepted login must meet: an admin is let in only if nobody else is
or is about to be admin, is rejected only on a connection that is not the admin,
and the login of another user leaves alone who is the admin. -/
def LoadOk (users : DatabaseHandler) (w : RaceState) (c : ConnId) (p : PacketLogin) : Prop :=
  ∀ session, w.live c = some session → users.login p.username p.password = true →
    if users.isAdmin p.username then
      if w.g.bAdminConnected then ¬ w.WillBeAdmin c
      else if users.getID p.username ≠ [] ∧ c ∉ w.leaving then ∀ d, d ≠ c → ¬ w.WillBeAdmin d
      else ∃ d, d ≠ c ∧ w.WillBeAdmin d
    else
      (session.isAdmin = true ∨ c ∈ w.passed) → c ∉ w.leaving →
        (users.getID p.username ≠ [] ↔ session.id ≠ [])

def RaceStepOk (users : DatabaseHandler) (w : RaceState) : RaceLabel → Prop
  | .load c p => LoadOk users w c p
  | .logoutBegin c => LeaveOk w c
  | .disconnect c => LeaveOk w c
  | _ => True

section Step

variable {users : DatabaseHandler} {w v : RaceState} {c d : ConnId} {session : Session}

@[simp] theorem RaceState.put_live_self (w : RaceState) (c : ConnId) (new : Option Session) :
    (w.put c new).live c = new :=
  Function.update_self ..

theorem RaceState.put_live_of_ne (w : RaceState) {c d : ConnId} (new : Option Session)
    (h : d ≠ c) : (w.put c new).live d = w.live d :=
  Function.update_of_ne h ..

theorem willBeAdmin_iff (hlive : w.live c = some session) :
    w.WillBeAdmin c ↔
      session.id ≠ [] ∧ c ∉ w.leaving ∧ (session.isAdmin = true ∨ c ∈ w.passed) := by
  simp [RaceState.WillBeAdmin, hlive]

/-- The admins-to-be depend on the session and on the handlers in progress. -/
theorem willBeAdmin_congr (hlive : v.live d = w.live d) (hpassed : d ∈ v.passed ↔ d ∈ w.passed)
    (hleaving : d ∈ v.leaving ↔ d ∈ w.leaving) : v.WillBeAdmin d ↔ w.WillBeAdmin d := by
  simp only [RaceState.WillBeAdmin, hlive, hpassed, hleaving]

theorem afterLeave_flag (g : GlobalState) (session : Session) :
    (g.afterLeave session).bAdminConnected = true ↔
      g.bAdminConnected = true ∧ ¬ session.isAdmin = true := by
  unfold GlobalState.afterLeave
  cases session.isAdmin <;> simp

/-- A connection that stops being the admin and resets the flag if it has the
privilege keeps the agreement exactly when `LeaveOk` says so. -/
theorem leave_agreement_iff (now : w.Agreement) (hlive : w.live c = some session)
    (hg : v.g = w.g.afterLeave session) (hpassed : v.passed = w.passed)
    (others : ∀ d, d ≠ c → (v.WillBeAdmin d ↔ w.WillBeAdmin d)) (lost : ¬ v.WillBeAdmin c) :
    v.Agreement ↔ LeaveOk w c := by
  have goal : v.Agreement ↔ (v.FlagWillBeSet ↔ w.FlagWillBeSet ∧ ¬ w.WillBeAdmin c) :=
    (now.lose_iff others lost).trans (iff_congr Iff.rfl now.other_iff)
  have flag : v.FlagWillBeSet ↔
      (w.g.bAdminConnected = true ∧ ¬ session.isAdmin = true) ∨ w.passed ≠ [] := by
    unfold RaceState.FlagWillBeSet
    rw [hg, hpassed, afterLeave_flag]
  have leave : LeaveOk w c ↔ (w.WillBeAdmin c → session.isAdmin = true ∧ w.passed = []) ∧
      (¬ w.WillBeAdmin c → session.isAdmin = true →
        ¬ w.g.bAdminConnected = true ∨ w.passed ≠ []) := by
    simp [LeaveOk, hlive]
  have set : w.WillBeAdmin c → w.g.bAdminConnected = true ∨ w.passed ≠ [] :=
    fun admin => now.2.mpr ⟨c, admin⟩
  rw [goal, flag, leave]
  unfold RaceState.FlagWillBeSet
  by_cases admin : w.WillBeAdmin c
  · have := set admin
    simp only [admin, not_true, and_false, iff_false, true_implies, false_implies, and_true]
    grind
  · simp only [admin, not_false_iff, and_true, false_implies, true_implies, true_and]
    grind

/-- The session of `c` changes, nothing else does. -/
theorem put_others (new : Option Session) (g : GlobalState) :
    ∀ d, d ≠ c →
      (RaceState.WillBeAdmin { w.put c new with g := g } d ↔ w.WillBeAdmin d) :=
  fun _ hd => willBeAdmin_congr (w.put_live_of_ne new hd) Iff.rfl Iff.rfl

theorem load_agreement_iff {p : PacketLogin} (now : w.Agreement)
    (step : RaceStep users w (.load c p) v) : v.Agreement ↔ LoadOk users w c p := by
  cases step with
  | badLogin hlive refused =>
      apply iff_of_true now
      intro session _ accepted
      rw [refused] at accepted
      cases accepted
  | @userLogin _ session _ hlive accepted user =>
      have same : (w.put c (some (session.loggedIn users p.username))).Agreement ↔
          ((w.put c (some (session.loggedIn users p.username))).WillBeAdmin c ↔
            w.WillBeAdmin c) :=
        now.same_flag_iff (put_others _ w.g)
      rw [same, willBeAdmin_iff hlive, willBeAdmin_iff (w.put_live_self c _)]
      simp only [LoadOk, hlive, Option.some.injEq, forall_eq', accepted, true_implies, user,
        Bool.false_eq_true, if_false, Session.loggedIn, RaceState.put, and_congr_left_iff]
      constructor
      · intro kept admin stays
        exact kept ⟨stays, admin⟩
      · rintro kept ⟨stays, admin⟩
        exact kept admin stays
  | @rejected _ session _ hlive accepted admin connected =>
      have lost :
          ¬ (w.put c (some (session.loggedIn users p.username).rejected)).WillBeAdmin c := by
        rw [willBeAdmin_iff (w.put_live_self c _)]
        exact fun will => will.1 rfl
      have same : (w.put c (some (session.loggedIn users p.username).rejected)).Agreement ↔
          ((w.put c (some (session.loggedIn users p.username).rejected)).WillBeAdmin c ↔
            w.WillBeAdmin c) :=
        now.same_flag_iff (put_others _ w.g)
      rw [same]
      simp only [LoadOk, hlive, Option.some.injEq, forall_eq', accepted, true_implies, admin,
        connected, if_true, lost, false_iff]
  | @passed _ session _ hlive accepted admin clear =>
      have others : ∀ d, d ≠ c →
          ((w.pass c (session.loggedIn users p.username)).WillBeAdmin d ↔ w.WillBeAdmin d) := by
        intro d hd
        exact willBeAdmin_congr (w.put_live_of_ne _ hd) (by simp [RaceState.pass, hd]) Iff.rfl
      have here : (w.pass c (session.loggedIn users p.username)).WillBeAdmin c ↔
          users.getID p.username ≠ [] ∧ c ∉ w.leaving := by
        have hnew : (w.pass c (session.loggedIn users p.username)).live c =
            some (session.loggedIn users p.username) := w.put_live_self c _
        rw [willBeAdmin_iff hnew]
        simp [Session.loggedIn, RaceState.pass, RaceState.put]
      have flag : (w.pass c (session.loggedIn users p.username)).FlagWillBeSet :=
        .inr (List.cons_ne_nil _ _)
      simp only [LoadOk, hlive, Option.some.injEq, forall_eq', accepted, true_implies, admin,
        clear, if_true, Bool.false_eq_true, if_false]
      by_cases gained : users.getID p.username ≠ [] ∧ c ∉ w.leaving
      · rw [if_pos gained]
        exact heldByOne_gain_iff others (here.mpr gained) flag
      · rw [if_neg gained]
        exact (now.lose_iff others fun hold => gained (here.mp hold)).trans
          ⟨fun told => told.mp flag, fun other => iff_of_true flag other⟩

theorem exchange_agreement_iff (step : RaceStep users w (.exchange c) v) :
    v.Agreement ↔ w.Agreement := by
  cases step with
  | @exchange _ session hlive hpassed =>
      refine HeldByOne.congr (fun d => ?_) ?_
      · by_cases hd : d = c
        · subst hd
          have hnew : (w.register d session).live d = some { session with isAdmin := true } :=
            w.put_live_self d _
          rw [willBeAdmin_iff hlive, willBeAdmin_iff hnew]
          simp [RaceState.register, RaceState.put, hpassed]
        · exact willBeAdmin_congr (w.put_live_of_ne _ hd) (List.mem_erase_of_ne hd) Iff.rfl
      · exact iff_of_true (.inl rfl) (.inr (List.ne_nil_of_mem hpassed))

theorem logoutEnd_agreement_iff (step : RaceStep users w (.logoutEnd c) v) :
    v.Agreement ↔ w.Agreement := by
  cases step with
  | @logoutEnd _ session hlive hleaving =>
      refine HeldByOne.congr (fun d => ?_) Iff.rfl
      by_cases hd : d = c
      · subst hd
        refine iff_of_false ?_ ?_
        · have hnew : (w.clearId d session).live d = some { session with id := [] } :=
            w.put_live_self d _
          rw [willBeAdmin_iff hnew]
          exact fun will => will.1 rfl
        · rintro ⟨_, _, _, notLeaving, _⟩
          exact notLeaving hleaving
      · exact willBeAdmin_congr (w.put_live_of_ne _ hd) Iff.rfl (List.mem_erase_of_ne hd)

/-- From a state in agreement, exactly the steps of `RaceStepOk` lead to one. -/
theorem race_step_iff (l : RaceLabel) (now : w.Agreement) (step : RaceStep users w l v) :
    v.Agreement ↔ RaceStepOk users w l := by
  cases l with
  | load c p => exact load_agreement_iff now step
  | accept c socketFd =>
      refine iff_of_true ?_ trivial
      cases step with
      | accept hfree =>
          have before : ¬ w.WillBeAdmin c := by
            rintro ⟨session, hlive, -⟩
            rw [hfree] at hlive
            cases hlive
          have after : ¬ (w.put c (some (.accepted socketFd))).WillBeAdmin c := by
            rw [willBeAdmin_iff (w.put_live_self c _)]
            exact fun will => will.1 rfl
          exact (now.same_flag_iff (put_others _ w.g)).mpr (iff_of_false after before)
  | exchange c => exact iff_of_true ((exchange_agreement_iff step).mpr now) trivial
  | logoutBegin c =>
      cases step with
      | @logoutBegin _ session hlive =>
          refine leave_agreement_iff now hlive rfl rfl (fun d hd => ?_) ?_
          · exact willBeAdmin_congr rfl Iff.rfl (by simp [RaceState.leave, hd])
          · rintro ⟨_, _, _, hleaving, _⟩
            exact hleaving List.mem_cons_self
  | logoutEnd c => exact iff_of_true ((logoutEnd_agreement_iff step).mpr now) trivial
  | other c =>
      refine iff_of_true ?_ trivial
      cases step with
      | @other _ session new g hlive hid hadmin hg =>
          refine (HeldByOne.congr (fun d => ?_) ?_).mpr now
          · by_cases hd : d = c
            · subst hd
              have hnew : SessionState.live { w.put d (some new) with g := g } d = some new :=
                w.put_live_self d _
              rw [willBeAdmin_iff hlive, willBeAdmin_iff hnew, hid, hadmin]
              rfl
            · exact put_others _ _ d hd
          · simp [RaceState.FlagWillBeSet, hg, RaceState.put]
  | disconnect c =>
      cases step with
      | @disconnect _ session hlive hpassed hleaving =>
          refine leave_agreement_iff now hlive rfl rfl (put_others _ _) ?_
          rintro ⟨other, hgone, _⟩
          have : (none : Option Session) = some other := (w.put_live_self c none).symm.trans hgone
          cases this

end Step

/-! ### Letting the handlers in progress finish -/

/-- No login or logout handler is in progress. -/
def RaceState.Quiet (w : RaceState) : Prop := w.passed = [] ∧ w.leaving = []

/-- At most one live connection is a logged-in admin, and the flag is set exactly
when there is one. -/
def SessionState.OneAdmin (w : SessionState) : Prop :=
  HeldByOne (fun c => ∃ session, w.live c = some session ∧ session.isAdmin = true ∧ session.id ≠ [])
    (w.g.bAdminConnected = true)

/-- The second half of a login or of a logout. -/
def RaceLabel.finishes : RaceLabel → Prop
  | .exchange _ | .logoutEnd _ => True
  | _ => False

/-- When the handlers in progress finish, in any order, there is one admin. -/
def SettlesWell (users : DatabaseHandler) (w : RaceState) : Prop :=
  ∀ moves v, Run (raceSystem users) w moves v → (∀ m ∈ moves, m.label.finishes) → v.Quiet →
    v.OneAdmin

/-- Handlers in progress are those of live connections. -/
def InProgressLive (w : RaceState) : Prop :=
  ∀ c, c ∈ w.passed ∨ c ∈ w.leaving → w.live c ≠ none

section Settle

variable {users : DatabaseHandler} {w v : RaceState}

theorem quiet_agreement_iff (quiet : w.Quiet) : w.Agreement ↔ w.OneAdmin := by
  refine HeldByOne.congr (fun c => ?_) ?_
  · simp only [RaceState.WillBeAdmin, quiet.1, quiet.2, List.not_mem_nil, or_false,
      not_false_iff, true_and]
    exact exists_congr fun session => and_congr_right fun _ => and_comm
  · simp [RaceState.FlagWillBeSet, quiet.1]

theorem finishes_agreement_iff {l : RaceLabel} (hl : l.finishes) (step : RaceStep users w l v) :
    v.Agreement ↔ w.Agreement := by
  cases l with
  | exchange c => exact exchange_agreement_iff step
  | logoutEnd c => exact logoutEnd_agreement_iff step
  | accept | load | logoutBegin | other | disconnect => exact hl.elim

theorem finishing_run_agreement_iff {moves : List (Move RaceState RaceLabel)}
    (run : Run (raceSystem users) w moves v) (all : ∀ m ∈ moves, m.label.finishes) :
    v.Agreement ↔ w.Agreement := by
  induction run with
  | nil => exact Iff.rfl
  | cons step _ ih =>
      obtain ⟨here, later⟩ := List.forall_mem_cons.mp all
      exact (ih later).trans (finishes_agreement_iff here step)

theorem put_live_ne_none {c d : ConnId} {new : Session} (h : w.live d ≠ none) :
    (w.put c (some new)).live d ≠ none := by
  by_cases hd : d = c
  · subst hd
    simp
  · rwa [w.put_live_of_ne _ hd]

/-- A step that keeps every live connection and starts handlers only on live ones. -/
theorem InProgressLive.of_subset (now : InProgressLive w)
    (live : ∀ d, w.live d ≠ none → v.live d ≠ none)
    (started : ∀ d, d ∈ v.passed ∨ d ∈ v.leaving →
      (d ∈ w.passed ∨ d ∈ w.leaving) ∨ w.live d ≠ none) : InProgressLive v := by
  intro d hd
  rcases started d hd with old | alive
  · exact live d (now d old)
  · exact live d alive

theorem inProgressLive_step {l : RaceLabel} (now : InProgressLive w)
    (step : RaceStep users w l v) : InProgressLive v := by
  have alive : ∀ {c : ConnId} {session : Session}, w.live c = some session → w.live c ≠ none :=
    fun hlive hnone => by simp [hlive] at hnone
  cases step with
  | accept hfree => exact now.of_subset (fun _ => put_live_ne_none) fun _ => .inl
  | badLogin hlive refused => exact now
  | userLogin hlive accepted user => exact now.of_subset (fun _ => put_live_ne_none) fun _ => .inl
  | rejected hlive accepted admin set =>
      exact now.of_subset (fun _ => put_live_ne_none) fun _ => .inl
  | @passed c session p hlive accepted admin clear =>
      refine now.of_subset (fun _ => put_live_ne_none) fun d hd => ?_
      by_cases hdc : d = c
      · exact .inr (hdc ▸ alive hlive)
      · exact .inl (hd.imp_left fun h => (List.mem_cons.mp h).resolve_left hdc)
  | exchange hlive hpassed =>
      exact now.of_subset (fun _ => put_live_ne_none) fun d hd =>
        .inl (hd.imp_left List.mem_of_mem_erase)
  | @logoutBegin c session hlive =>
      refine now.of_subset (fun _ h => h) fun d hd => ?_
      by_cases hdc : d = c
      · exact .inr (hdc ▸ alive hlive)
      · exact .inl (hd.imp_right fun h => (List.mem_cons.mp h).resolve_left hdc)
  | logoutEnd hlive hleaving =>
      exact now.of_subset (fun _ => put_live_ne_none) fun d hd =>
        .inl (hd.imp_right List.mem_of_mem_erase)
  | other hlive hid hadmin hg => exact now.of_subset (fun _ => put_live_ne_none) fun _ => .inl
  | @disconnect c session hlive hpassed hleaving =>
      intro d hd
      have hdc : d ≠ c := by
        rintro rfl
        exact hd.elim hpassed hleaving
      exact fun hnone => now d hd ((w.put_live_of_ne none hdc).symm.trans hnone)

/-- The handlers in progress can all finish; the induction is on their number. -/
theorem exists_finishing_run (users : DatabaseHandler) (n : Nat) (live : InProgressLive w)
    (count : w.passed.length + w.leaving.length = n) :
    ∃ moves v, Run (raceSystem users) w moves v ∧ (∀ m ∈ moves, m.label.finishes) ∧ v.Quiet := by
  induction n generalizing w with
  | zero =>
      have hpassed : w.passed = [] := List.eq_nil_of_length_eq_zero (by omega)
      have hleaving : w.leaving = [] := List.eq_nil_of_length_eq_zero (by omega)
      exact ⟨[], w, .nil w, by simp, hpassed, hleaving⟩
  | succ n ih =>
      suffices next : ∃ l u, RaceStep users w l u ∧ l.finishes ∧
          u.passed.length + u.leaving.length = n by
        obtain ⟨l, u, step, finishes, fewer⟩ := next
        obtain ⟨moves, v, run, all, quiet⟩ := ih (inProgressLive_step live step) fewer
        exact ⟨_, v, .cons step run, List.forall_mem_cons.mpr ⟨finishes, all⟩, quiet⟩
      cases hpassed : w.passed with
      | cons c rest =>
          have hc : c ∈ w.passed := hpassed ▸ List.mem_cons_self
          obtain ⟨session, hlive⟩ := Option.ne_none_iff_exists'.mp (live c (.inl hc))
          refine ⟨_, _, .exchange hlive hc, trivial, ?_⟩
          simp only [RaceState.register, RaceState.put, hpassed, List.erase_cons_head]
          rw [hpassed, List.length_cons] at count
          omega
      | nil =>
          cases hleaving : w.leaving with
          | nil => simp [hpassed, hleaving] at count
          | cons c rest =>
              have hc : c ∈ w.leaving := hleaving ▸ List.mem_cons_self
              obtain ⟨session, hlive⟩ := Option.ne_none_iff_exists'.mp (live c (.inr hc))
              refine ⟨_, _, .logoutEnd hlive hc, trivial, ?_⟩
              simp only [RaceState.clearId, RaceState.put, hpassed, hleaving, List.erase_cons_head]
              rw [hpassed, hleaving, List.length_cons] at count
              simpa using count

/-- Settling well is agreement. -/
theorem settlesWell_iff (live : InProgressLive w) : SettlesWell users w ↔ w.Agreement := by
  constructor
  · intro settles
    obtain ⟨moves, v, run, all, quiet⟩ := exists_finishing_run users _ live rfl
    exact (finishing_run_agreement_iff run all).mp
      ((quiet_agreement_iff quiet).mpr (settles moves v run all quiet))
  · intro agreement moves v run all quiet
    exact (quiet_agreement_iff quiet).mp ((finishing_run_agreement_iff run all).mpr agreement)

end Settle

/-! ### Runs -/

theorem agreement_initial : SessionState.initial.quiet.Agreement := by
  refine (quiet_agreement_iff ⟨rfl, rfl⟩).mpr ⟨?_, ?_⟩
  · rintro c d ⟨session, hlive, -⟩
    cases hlive
  · apply iff_of_false (by decide)
    rintro ⟨c, session, hlive, -⟩
    cases hlive

theorem inProgressLive_initial : InProgressLive SessionState.initial.quiet := by
  rintro c (h | h) <;> cases h

/-- In a run of interleaved handlers, every state reached settles with at most
one admin and the flag telling whether there is one exactly when every step is
as `RaceStepOk` asks; then the states without a handler in progress have it. -/
theorem one_admin_iff {users : DatabaseHandler} {moves : List (Move RaceState RaceLabel)}
    {w : RaceState} (run : Run (raceSystem users) SessionState.initial.quiet moves w) :
    ((∀ m ∈ moves, SettlesWell users m.post) ↔ ∀ m ∈ moves, RaceStepOk users m.pre m.label) ∧
      ((∀ m ∈ moves, RaceStepOk users m.pre m.label) →
        ∀ m ∈ moves, m.post.Quiet → m.post.OneAdmin) := by
  have exact_step : ∀ u l v, RaceState.Agreement u → (raceSystem users).step u l v →
      (v.Agreement ↔ RaceStepOk users u l) := fun _ l _ now step => race_step_iff l now step
  have keeps : ∀ u l v, InProgressLive u → (raceSystem users).step u l v → InProgressLive v :=
    fun _ _ _ now step => inProgressLive_step now step
  have live : ∀ m ∈ moves, InProgressLive m.post :=
    fun m hm => ((run.invariant keeps inProgressLive_initial).2 m hm).2
  have exactly := run.invariant_iff exact_step agreement_initial
  refine ⟨?_, fun ok m hm quiet => (quiet_agreement_iff quiet).mp (exactly.mpr ok m hm)⟩
  rw [← exactly]
  exact forall₂_congr fun m hm => settlesWell_iff (live m hm)

/-! ### Handlers that run without interruption -/

section Atomic

variable {users : DatabaseHandler} {w : SessionState} {c : ConnId} {session : Session}

/-- The state of a connection is put back as it is. -/
theorem SessionState.set_self (hlive : w.live c = some session) :
    w.set c (some session) w.g = w := by
  unfold SessionState.set
  rw [← hlive, Function.update_eq_self]

/-- After the steps of a handler, `other` brings the rest of its session. -/
theorem race_run_settle {a t : HandlerState}
    (run : ∃ moves, Run (raceSystem users) w.quiet moves
      (w.set c (some a.session) a.g).quiet)
    (hid : t.session.id = a.session.id) (hadmin : t.session.isAdmin = a.session.isAdmin)
    (hflag : t.g.bAdminConnected = a.g.bAdminConnected) :
    ∃ moves, Run (raceSystem users) w.quiet moves (w.set c (some t.session) t.g).quiet := by
  obtain ⟨moves, run⟩ := run
  have hlive : (w.set c (some a.session) a.g).quiet.live c = some a.session :=
    w.set_live_self c (some a.session) a.g
  have step : RaceStep users (w.set c (some a.session) a.g).quiet (.other c)
      { (w.set c (some a.session) a.g).quiet.put c (some t.session) with g := t.g } :=
    .other hlive hid hadmin hflag
  have settle : RaceStep users (w.set c (some a.session) a.g).quiet (.other c)
      (w.set c (some t.session) t.g).quiet := by
    simpa [RaceState.put, SessionState.quiet, SessionState.set] using step
  exact ⟨_, run.append (.one settle)⟩

/-- A login that is not interrupted is its load and, when it passes, its store. -/
theorem race_run_login {tls : Buffer} {p : PacketLogin} (hlive : w.live c = some session) :
    let after := HandlerState.afterLogin ⟨session, w.g, tls⟩ users p
    ∃ moves, Run (raceSystem users) w.quiet moves (w.set c (some after.session) after.g).quiet := by
  have hquiet : w.quiet.live c = some session := hlive
  by_cases accepted : users.login p.username p.password = true
  swap
  · simp only [HandlerState.afterLogin, accepted, Bool.false_eq_true, if_false]
    rw [SessionState.set_self hlive]
    exact ⟨[], .nil _⟩
  by_cases admin : users.isAdmin p.username = true
  swap
  · simp only [HandlerState.afterLogin, accepted, admin, if_true, Bool.false_eq_true, if_false]
    have step : RaceStep users w.quiet (.load c p) (w.quiet.put c _) :=
      .userLogin hquiet accepted (by simpa using admin)
    exact ⟨_, .one step⟩
  cases connected : w.g.bAdminConnected with
  | true =>
      simp only [HandlerState.afterLogin, accepted, admin, connected, if_true]
      have step : RaceStep users w.quiet (.load c p) (w.quiet.put c _) :=
        .rejected hquiet accepted admin connected
      exact ⟨_, .one step⟩
  | false =>
      simp only [HandlerState.afterLogin, accepted, admin, connected, if_true,
        Bool.false_eq_true, if_false]
      have load : RaceStep users w.quiet (.load c p) (w.quiet.pass c _) :=
        .passed hquiet accepted admin connected
      have store : RaceStep users (w.quiet.pass c (session.loggedIn users p.username))
          (.exchange c) _ := .exchange (w.quiet.put_live_self c _) List.mem_cons_self
      have last : (w.quiet.pass c (session.loggedIn users p.username)).register c
          (session.loggedIn users p.username) = (w.set c
            (some { session.loggedIn users p.username with isAdmin := true })
            { w.g with bAdminConnected := true }).quiet := by
        simp [RaceState.register, RaceState.pass, RaceState.put, SessionState.quiet,
          SessionState.set]
      rw [last] at store
      exact ⟨_, .cons load (.one store)⟩

theorem race_run_logout {tls : Buffer} (hlive : w.live c = some session) :
    let after := HandlerState.afterLogout ⟨session, w.g, tls⟩
    ∃ moves, Run (raceSystem users) w.quiet moves (w.set c (some after.session) after.g).quiet := by
  have hquiet : w.quiet.live c = some session := hlive
  have reset : RaceStep users w.quiet (.logoutBegin c) (w.quiet.leave c session) :=
    .logoutBegin hquiet
  have clear : RaceStep users (w.quiet.leave c session) (.logoutEnd c) _ :=
    .logoutEnd hquiet List.mem_cons_self
  have last : (w.quiet.leave c session).clearId c session =
      (w.set c (some { session with id := [] }) (w.g.afterLeave session)).quiet := by
    simp [RaceState.clearId, RaceState.leave, RaceState.put, SessionState.quiet, SessionState.set]
  rw [last] at clear
  exact ⟨_, .cons reset (.one clear)⟩

/-- Every step of the sessions, one handler at a time, is a run of the
interleaved system between states without a handler in progress. -/
theorem race_run_of_session_step {v : SessionState} {l : SessionLabel}
    (step : SessionStep users w l v) : ∃ moves, Run (raceSystem users) w.quiet moves v.quiet := by
  cases step with
  | @accept c socketFd hfree =>
      have accepted : RaceStep users w.quiet (.accept c socketFd) (w.quiet.put c _) := .accept hfree
      exact ⟨_, .one accepted⟩
  | @packet c ty receiveBuffer cb session fuel tls events t hlive run =>
      have start : ∃ moves, Run (raceSystem users) w.quiet moves
          (w.set c (some session) w.g).quiet := by
        rw [SessionState.set_self hlive]
        exact ⟨[], .nil _⟩
      have settle : t.session.id = session.id → t.session.isAdmin = session.isAdmin →
          t.g.bAdminConnected = w.g.bAdminConnected →
          ∃ moves, Run (raceSystem users) w.quiet moves (w.set c (some t.session) t.g).quiet :=
        race_run_settle (a := ⟨session, w.g, tls⟩) (t := t) start
      cases packet_effect run with
      | login p hdecode same =>
          exact race_run_settle (race_run_login hlive) same.id same.isAdmin same.bAdminConnected
      | logout same =>
          exact race_run_settle (race_run_logout hlive) same.id same.isAdmin same.bAdminConnected
      | changeDirectory path newDir moves hid cd hne same =>
          exact settle same.id same.isAdmin same.bAdminConnected
      | keep hlogin hlogout same => exact settle same.id same.isAdmin same.bAdminConnected
  | @disconnect c session g events hlive run =>
      have gone : RaceStep users w.quiet (.disconnect c)
          { w.quiet.put c none with g := w.g.afterLeave session } :=
        .disconnect hlive List.not_mem_nil List.not_mem_nil
      rw [exec_destroyConnection run]
      exact ⟨_, .one gone⟩

end Atomic

/-! ### Two admins -/

def rootLogin : PacketLogin := ⟨ascii "root", ascii "a"⟩

theorem rootLogin_accepted : exampleUsers.login (ascii "root") (ascii "a") = true := by
  decide +kernel

/-- Connection `c` is accepted by a state without handlers in progress. -/
def RaceState.accepted (w : RaceState) (c : ConnId) : RaceState :=
  w.put c (some (.accepted 5))

/-- The session between the load and the store of an admin's login. -/
def passedSession : Session := (Session.accepted 5).loggedIn exampleUsers (ascii "root")

theorem rootLogin_passes {w : RaceState} {c : ConnId} (hlive : w.live c = some (.accepted 5))
    (clear : w.g.bAdminConnected = false) :
    RaceStep exampleUsers w (.load c rootLogin) (w.pass c passedSession) :=
  .passed hlive rootLogin_accepted (by decide) clear

/-- Both logins load the flag before either stores it. -/
theorem two_admins :
    ∃ moves w, Run (raceSystem exampleUsers) SessionState.initial.quiet moves w ∧ w.Quiet ∧
      ¬ w.OneAdmin := by
  let start := (SessionState.initial.quiet.accepted 0).accepted 1
  let loaded := (start.pass 0 passedSession).pass 1 passedSession
  let stored := (loaded.register 0 passedSession).register 1 passedSession
  have accept0 : RaceStep exampleUsers SessionState.initial.quiet (.accept 0 5) _ := .accept rfl
  have accept1 :
      RaceStep exampleUsers (SessionState.initial.quiet.accepted 0) (.accept 1 5) start :=
    .accept rfl
  have load0 := rootLogin_passes (w := start) (c := 0) rfl rfl
  have load1 := rootLogin_passes (w := start.pass 0 passedSession) (c := 1) rfl rfl
  have store0 : RaceStep exampleUsers loaded (.exchange 0) (loaded.register 0 passedSession) :=
    .exchange rfl (by decide)
  have store1 : RaceStep exampleUsers (loaded.register 0 passedSession) (.exchange 1) stored :=
    .exchange rfl (by decide)
  refine ⟨_, stored, .cons accept0 (.cons accept1 (.cons load0 (.cons load1 (.cons store0
    (.one store1))))), ⟨rfl, rfl⟩, fun one => ?_⟩
  have both : (0 : ConnId) = 1 :=
    one.1 0 1 ⟨_, rfl, rfl, by decide⟩ ⟨_, rfl, rfl, by decide⟩
  cases both

/-- An admin alone. -/
theorem one_admin_root :
    ∃ moves w, Run (raceSystem exampleUsers) SessionState.initial.quiet moves w ∧
      moves.length = 3 ∧ ∀ m ∈ moves, m.post.Quiet → m.post.OneAdmin := by
  let start := SessionState.initial.quiet.accepted 0
  have accept : RaceStep exampleUsers SessionState.initial.quiet (.accept 0 5) start := .accept rfl
  have load := rootLogin_passes (w := start) (c := 0) rfl rfl
  have store : RaceStep exampleUsers (start.pass 0 passedSession) (.exchange 0)
      ((start.pass 0 passedSession).register 0 passedSession) := .exchange rfl (by decide)
  have run : Run (raceSystem exampleUsers) SessionState.initial.quiet _ _ :=
    .cons accept (.cons load (.one store))
  refine ⟨_, _, run, rfl, (one_admin_iff run).2 ?_⟩
  simp only [List.mem_cons, List.not_mem_nil, or_false, forall_eq_or_imp, forall_eq]
  refine ⟨trivial, ?_, trivial⟩
  intro session hlive accepted
  rw [if_pos (by decide), if_neg (by decide), if_pos (by decide)]
  rintro d hd ⟨other, hother, -⟩
  rw [show start.live d = none from SessionState.initial.quiet.put_live_of_ne _ hd] at hother
  cases hother

end ConcurrentTcp
