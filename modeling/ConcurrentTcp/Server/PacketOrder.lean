import ConcurrentTcp.Server.AdminPrivilege
import ConcurrentTcp.Server.Threads

/-!
The order in which packets are served.

`ServerState.ledger` sees the threads as a service of numbered requests: pushing a
packet is an arrival, calling its handler a start. Moves between the stack, the
queue and a worker's hands do not show. `requests_in_order_iff` says when each
connection is served in order and one packet at a time: workers must not take a
packet while an earlier one of its connection is in flight.
-/

namespace ConcurrentTcp

open Interaction Transition Service

/-! ### The ledger -/

namespace ServerState

/-- The tasks workers hold without having called the handler. -/
def taken (s : ServerState) : List Task := s.workers.filterMap Worker.taken?

/-- The tasks whose handlers are in progress. -/
def running (s : ServerState) : List Task := s.workers.filterMap Worker.inProgress?

/-- The tasks no handler was called for. -/
def waiting (s : ServerState) : List Task := s.completedPackets ++ s.tasks ++ s.taken

def ledger (s : ServerState) : Ledger ConnId where
  arrived := fun c => (s.pushed c).length
  waiting := (s.waiting.map Task.key : List (ConnId × Nat))
  running := (s.running.map Task.key : List (ConnId × Nat))
  started := s.started.map Task.key

/-- A task in flight waits or is being served. -/
theorem mem_inFlight {s : ServerState} {task : Task} :
    task ∈ s.inFlight ↔ task ∈ s.waiting ∨ task ∈ s.running := by
  have hworker : ∀ w : Worker, w.task? = some task ↔
      w.taken? = some task ∨ w.inProgress? = some task := by
    intro w
    cases w <;> simp [Worker.task?, Worker.taken?, Worker.inProgress?]
  unfold inFlight waiting taken running
  simp only [List.mem_append, List.mem_filterMap, hworker, and_or_left, exists_or, or_assoc]

end ServerState

/-- What a step does to the ledger. -/
def LedgerEffect (s t : ServerState) : ThreadLabel → Prop
  | .push task => t.ledger = s.ledger.arrive task.packet.connection
  | .start task _ => task ∈ s.taken ∧ t.ledger = s.ledger.start task.key
  | .finish task _ _ _ _ _ => t.ledger = s.ledger.finish task.key
  | _ => t.ledger = s.ledger

section Effect

variable {users : DatabaseHandler} {s t : ServerState} {l : ThreadLabel}

theorem filterMap_workers (f : Worker → Option Task) (front : List Worker) (w : Worker)
    (back : List Worker) :
    (front ++ w :: back).filterMap f = front.filterMap f ++ ((f w).toList ++ back.filterMap f) := by
  rw [List.filterMap_append, List.filterMap_cons]
  cases f w <;> rfl

theorem keys_middle (xs ys : List Task) (task : Task) :
    (((xs ++ task :: ys).map Task.key : List (ConnId × Nat)) : Multiset (ConnId × Nat)) =
      task.key ::ₘ ((xs ++ ys).map Task.key : List (ConnId × Nat)) := by
  rw [Multiset.cons_coe, Multiset.coe_eq_coe]
  exact List.perm_middle.map Task.key

/-- The ledger depends on the waiting tasks up to their order. -/
theorem ledger_eq_of_perm (hpushed : t.pushed = s.pushed) (hstarted : t.started = s.started)
    (hwaiting : t.waiting.Perm s.waiting) (hrunning : t.running = s.running) :
    t.ledger = s.ledger := by
  unfold ServerState.ledger
  rw [hpushed, hstarted, hrunning, Multiset.coe_eq_coe.mpr (hwaiting.map Task.key)]

theorem ledger_push (s : ServerState) (it : Nat) (c : ConnId) (connection : ConnectionWrapper)
    (packetSize : Nat) : (s.push it c connection packetSize).ledger = s.ledger.arrive c := by
  have harrived : (fun d => ((s.push it c connection packetSize).pushed d).length) =
      Function.update s.ledger.arrived c (s.ledger.arrived c + 1) := by
    funext d
    show (Function.update s.pushed c _ d).length = _
    by_cases hd : d = c
    · subst hd
      rw [Function.update_self, Function.update_self, List.length_append]
      rfl
    · rw [Function.update_of_ne hd, Function.update_of_ne hd]
      rfl
  unfold Ledger.arrive
  rw [← harrived]
  rfl

/-- A worker calls the handler of the task it holds. -/
theorem ledger_start {task : Task} {packetType : PacketType} {front back : List Worker}
    (hworkers : s.workers = front ++ .taken task :: back)
    (hpushed : t.pushed = s.pushed) (hstarted : t.started = s.started ++ [task])
    (hcompleted : t.completedPackets = s.completedPackets) (htasks : t.tasks = s.tasks)
    (hnext : t.workers = front ++ .inProgress task packetType :: back) :
    t.ledger = s.ledger.start task.key := by
  have hwaiting : (s.waiting.map Task.key : Multiset (ConnId × Nat)) =
      task.key ::ₘ (t.waiting.map Task.key : List (ConnId × Nat)) := by
    have hmiddle := keys_middle (s.completedPackets ++ s.tasks ++ front.filterMap Worker.taken?)
      (back.filterMap Worker.taken?) task
    unfold ServerState.waiting ServerState.taken
    rw [hworkers, hnext, filterMap_workers, filterMap_workers, hcompleted, htasks]
    simp only [List.append_assoc] at hmiddle ⊢
    exact hmiddle
  have hrunning : (t.running.map Task.key : Multiset (ConnId × Nat)) =
      task.key ::ₘ (s.running.map Task.key : List (ConnId × Nat)) := by
    unfold ServerState.running
    rw [hworkers, hnext, filterMap_workers, filterMap_workers]
    exact keys_middle _ _ task
  unfold Ledger.start ServerState.ledger
  rw [hwaiting, Multiset.erase_cons_head, hrunning, hpushed, hstarted, List.map_append]
  rfl

/-- A worker returns from a handler. -/
theorem ledger_finish {task : Task} {packetType : PacketType} {front back : List Worker}
    (hworkers : s.workers = front ++ .inProgress task packetType :: back)
    (hpushed : t.pushed = s.pushed) (hstarted : t.started = s.started)
    (hcompleted : t.completedPackets = s.completedPackets) (htasks : t.tasks = s.tasks)
    (hnext : t.workers = front ++ .idle :: back) : t.ledger = s.ledger.finish task.key := by
  have hwaiting : t.waiting = s.waiting := by
    unfold ServerState.waiting ServerState.taken
    rw [hworkers, hnext, filterMap_workers, filterMap_workers, hcompleted, htasks]
    rfl
  have hrunning : (s.running.map Task.key : Multiset (ConnId × Nat)) =
      task.key ::ₘ (t.running.map Task.key : List (ConnId × Nat)) := by
    unfold ServerState.running
    rw [hworkers, hnext, filterMap_workers, filterMap_workers]
    exact keys_middle _ _ task
  unfold Ledger.finish ServerState.ledger
  rw [hrunning, Multiset.erase_cons_head, hpushed, hstarted, hwaiting]

/-- A worker takes the front of the queue. -/
theorem ledger_take {task : Task} {rest : List Task} {front back : List Worker}
    (htasks : s.tasks = task :: rest) (hworkers : s.workers = front ++ .idle :: back)
    (hpushed : t.pushed = s.pushed) (hstarted : t.started = s.started)
    (hcompleted : t.completedPackets = s.completedPackets) (hrest : t.tasks = rest)
    (hnext : t.workers = front ++ .taken task :: back) : t.ledger = s.ledger := by
  refine ledger_eq_of_perm hpushed hstarted ?_ ?_
  · have htaken :
        t.taken = front.filterMap Worker.taken? ++ task :: back.filterMap Worker.taken? := by
      unfold ServerState.taken
      rw [hnext, filterMap_workers]
      rfl
    have hbefore : s.taken = front.filterMap Worker.taken? ++ back.filterMap Worker.taken? := by
      unfold ServerState.taken
      rw [hworkers, filterMap_workers]
      rfl
    unfold ServerState.waiting
    rw [htaken, hbefore, hcompleted, hrest, htasks, ← List.append_assoc, ← List.append_assoc]
    apply List.perm_middle.trans
    exact (List.perm_middle.symm.append_right _).append_right _
  · unfold ServerState.running
    rw [hworkers, hnext, filterMap_workers, filterMap_workers]
    rfl

theorem ThreadStep.ledger (step : ThreadStep users s l t) : LedgerEffect s t l := by
  cases step with
  | push => exact ledger_push s _ _ _ _
  | dispatchAsync hpc hcompleted =>
      rename_i task rest
      refine ledger_eq_of_perm rfl rfl ?_ rfl
      show (rest ++ (s.tasks ++ [task]) ++ s.taken).Perm (s.completedPackets ++ s.tasks ++ s.taken)
      rw [hcompleted, ← List.append_assoc]
      exact (List.perm_append_singleton task (rest ++ s.tasks)).append_right _
  | take htasks hworkers => exact ledger_take htasks hworkers rfl rfl rfl rfl rfl
  | start hworkers hbuffer =>
      refine ⟨?_, ledger_start hworkers rfl rfl rfl rfl rfl⟩
      unfold ServerState.taken
      rw [hworkers, filterMap_workers]
      exact List.mem_append_right _ List.mem_cons_self
  | finish fuel tls events out hworkers hlive run hfuel =>
      cases out with
      | ok u => exact ledger_finish hworkers rfl rfl rfl rfl rfl
      | error e => exact ledger_finish hworkers rfl rfl rfl rfl rfl
  | _ => exact rfl

end Effect

/-- The ledger of a reachable state is well formed. -/
theorem LedgerEffect.wellFormed {s t : ServerState} {l : ThreadLabel} (effect : LedgerEffect s t l)
    (wf : s.ledger.WellFormed) : t.ledger.WellFormed := by
  cases l with
  | push task => exact effect ▸ wf.arrive _
  | start task receiveBuffer =>
      obtain ⟨hmem, heq⟩ := effect
      have hwaiting : task.key ∈ s.ledger.waiting := by
        refine Multiset.mem_coe.mpr (List.mem_map_of_mem ?_)
        exact List.mem_append_right _ hmem
      exact heq ▸ wf.start hwaiting
  | finish task packetType receiveBuffer before events out => exact effect ▸ wf.finish _
  | accept c socketFd => exact effect ▸ wf
  | server => exact effect ▸ wf
  | recv c bytes => exact effect ▸ wf
  | disconnect c => exact effect ▸ wf
  | take task => exact effect ▸ wf

/-! ### Service in order -/

/-- Each connection's handlers were started in the order of its packets, and no two of
them are in progress. -/
structure ServedInOrder (s : ServerState) : Prop where
  starts : ∀ c, (s.started.filter (·.packet.connection = c)).map (·.seq) =
    List.range ((s.started.filter (·.packet.connection = c)).map (·.seq)).length
  single : (s.running.map (·.packet.connection)).Nodup

theorem servedInOrder_iff {s : ServerState} : ServedInOrder s ↔ s.ledger.InOrder := by
  have hstarts : ∀ c, s.ledger.startsOf c =
      (s.started.filter (·.packet.connection = c)).map (·.seq) := by
    intro c
    unfold Ledger.startsOf
    show ((s.started.map Task.key).filter (·.1 = c)).map (·.2) = _
    rw [List.filter_map, List.map_map]
    rfl
  have hsingle : s.ledger.running.map (·.1) =
      (s.running.map (·.packet.connection) : List ConnId) := by
    show ((s.running.map Task.key : List (ConnId × Nat)) : Multiset (ConnId × Nat)).map (·.1) = _
    rw [Multiset.map_coe, List.map_map]
    rfl
  constructor
  · rintro ⟨starts, single⟩
    refine ⟨fun c => ?_, ?_⟩
    · rw [hstarts]
      exact starts c
    · rw [hsingle]
      exact Multiset.coe_nodup.mpr single
  · rintro ⟨starts, single⟩
    refine ⟨fun c => ?_, ?_⟩
    · have := starts c
      rwa [hstarts] at this
    · rw [hsingle] at single
      exact Multiset.coe_nodup.mp single

/-- No earlier packet of the connection is in the stack, in the queue or with a
worker. -/
def NoEarlier (s : ServerState) (task : Task) : Prop :=
  ∀ other ∈ s.inFlight, other.packet.connection = task.packet.connection →
    ¬ other.seq < task.seq

theorem noEarlier_iff {s : ServerState} {task : Task} :
    NoEarlier s task ↔ s.ledger.EarlierDone task.key := by
  have hkeys : ∀ (tasks : List Task) (m : Nat), ((task.key.1, m) : ConnId × Nat) ∈
      (tasks.map Task.key : List (ConnId × Nat)) ↔
        ∃ other ∈ tasks, other.packet.connection = task.packet.connection ∧ other.seq = m := by
    intro tasks m
    rw [List.mem_map]
    constructor
    · rintro ⟨other, hmem, hkey⟩
      exact ⟨other, hmem, (Prod.mk.inj hkey).1, (Prod.mk.inj hkey).2⟩
    · rintro ⟨other, hmem, hconnection, rfl⟩
      exact ⟨other, hmem, Prod.ext hconnection rfl⟩
  constructor
  · intro none m hm
    constructor
    · intro hwaiting
      obtain ⟨other, hmem, hconnection, rfl⟩ := (hkeys s.waiting m).mp hwaiting
      exact none other (ServerState.mem_inFlight.mpr (.inl hmem)) hconnection hm
    · intro hrunning
      obtain ⟨other, hmem, hconnection, rfl⟩ := (hkeys s.running m).mp hrunning
      exact none other (ServerState.mem_inFlight.mpr (.inr hmem)) hconnection hm
  · intro done other hmem hconnection hlt
    obtain ⟨hwaiting, hrunning⟩ := done other.seq hlt
    rcases ServerState.mem_inFlight.mp hmem with waits | runs
    · exact hwaiting ((hkeys s.waiting other.seq).mpr ⟨other, waits, hconnection, rfl⟩)
    · exact hrunning ((hkeys s.running other.seq).mpr ⟨other, runs, hconnection, rfl⟩)

/-- A worker takes a packet only when no earlier one of its connection is in flight. -/
def TakeOk (s : ServerState) : ThreadLabel → Prop
  | .take task => NoEarlier s task
  | _ => True

/-- The order holds, and holds after any worker calls the handler of what it has
taken. -/
def StaysInOrder (users : DatabaseHandler) (s : ServerState) : Prop :=
  ServedInOrder s ∧ ∀ task receiveBuffer t,
    ThreadStep users s (.start task receiveBuffer) t → ServedInOrder t

section Order

variable {users : DatabaseHandler} {s t : ServerState} {l : ThreadLabel}

theorem waiting_of_taken {task : Task} (h : task ∈ s.taken) : task.key ∈ s.ledger.waiting :=
  Multiset.mem_coe.mpr (List.mem_map_of_mem (List.mem_append_right _ h))

/-- The handler of a taken task can be called. -/
theorem exists_start (users : DatabaseHandler) {task : Task} (h : task ∈ s.taken) :
    ∃ receiveBuffer t, ThreadStep users s (.start task receiveBuffer) t := by
  obtain ⟨w, hw, htask⟩ := List.mem_filterMap.mp h
  obtain ⟨front, back, hworkers⟩ := List.append_of_mem hw
  cases w with
  | taken held =>
      cases htask
      cases hlive : s.connections task.packet.connection with
      | none => exact ⟨Buffer.zero, _, .start hworkers fun c hc => by rw [hlive] at hc; cases hc⟩
      | some connection =>
          refine ⟨connection.buffer, _, .start hworkers fun c hc => ?_⟩
          rw [hlive] at hc
          cases hc
          rfl
  | idle => cases htask
  | inProgress held packetType => cases htask

/-- The order stays when what workers hold comes next. -/
theorem staysInOrder_iff (wf : s.ledger.WellFormed) :
    StaysInOrder users s ↔
      s.ledger.InOrder ∧ ∀ task ∈ s.taken, s.ledger.EarlierDone task.key := by
  unfold StaysInOrder
  rw [servedInOrder_iff]
  constructor
  · rintro ⟨order, starts⟩
    refine ⟨order, fun task htaken => ?_⟩
    obtain ⟨receiveBuffer, t, step⟩ := exists_start users htaken
    obtain ⟨-, heq⟩ : task ∈ s.taken ∧ t.ledger = s.ledger.start task.key := step.ledger
    have next := servedInOrder_iff.mp (starts task receiveBuffer t step)
    rw [heq] at next
    exact (Ledger.inOrder_start_iff wf order (waiting_of_taken htaken)).mp next
  · rintro ⟨order, done⟩
    refine ⟨order, fun task receiveBuffer t step => ?_⟩
    obtain ⟨htaken, heq⟩ : task ∈ s.taken ∧ t.ledger = s.ledger.start task.key := step.ledger
    rw [servedInOrder_iff, heq]
    exact (Ledger.inOrder_start_iff wf order (waiting_of_taken htaken)).mpr (done task htaken)

/-- What workers hold after a step, they held before or took. -/
theorem ThreadStep.taken (step : ThreadStep users s l t) :
    ∀ task ∈ t.taken, task ∈ s.taken ∨ l = .take task := by
  intro task hmem
  cases step with
  | take htasks hworkers =>
      have hmem' : task ∈ (_ ++ Worker.taken _ :: _).filterMap Worker.taken? := hmem
      rw [filterMap_workers] at hmem'
      unfold ServerState.taken
      rw [hworkers, filterMap_workers]
      rcases List.mem_append.mp hmem' with hfront | hrest
      · exact .inl (List.mem_append_left _ hfront)
      · rcases List.mem_cons.mp hrest with rfl | hback
        · exact .inr rfl
        · exact .inl (List.mem_append_right _ hback)
  | start hworkers hbuffer =>
      left
      have hmem' : task ∈ (_ ++ Worker.inProgress _ _ :: _).filterMap Worker.taken? := hmem
      rw [filterMap_workers] at hmem'
      unfold ServerState.taken
      rw [hworkers, filterMap_workers]
      rcases List.mem_append.mp hmem' with hfront | hback
      · exact List.mem_append_left _ hfront
      · exact List.mem_append_right _ (List.mem_cons_of_mem _ hback)
  | finish fuel tls events out hworkers hlive run hfuel =>
      left
      rename_i served packetType connection front back
      have hmem' : task ∈ (front ++ Worker.idle :: back).filterMap Worker.taken? := by
        cases out with
        | ok u => exact hmem
        | error e => exact hmem
      rw [filterMap_workers] at hmem'
      unfold ServerState.taken
      rw [hworkers, filterMap_workers]
      exact hmem'
  | _ => exact .inl hmem

/-- What came before a held task is done, and stays so. -/
theorem ThreadStep.earlierDone (step : ThreadStep users s l t) (wf : s.ledger.WellFormed)
    {task : Task} (htaken : task ∈ s.taken) (done : s.ledger.EarlierDone task.key) :
    t.ledger.EarlierDone task.key := by
  have effect := step.ledger
  have hknown : task.key.2 < s.ledger.arrived task.key.1 :=
    (wf.known task.key).mp (Multiset.mem_add.mpr (.inl (waiting_of_taken htaken)))
  cases l with
  | push other => exact effect ▸ done.arrive hknown _
  | start other receiveBuffer =>
      obtain ⟨hother, heq⟩ := effect
      exact heq ▸ done.start (waiting_of_taken hother)
  | finish other packetType receiveBuffer before events out => exact effect ▸ done.finish _
  | accept c socketFd => exact effect ▸ done
  | server => exact effect ▸ done
  | recv c bytes => exact effect ▸ done
  | disconnect c => exact effect ▸ done
  | take other => exact effect ▸ done

/-- From a state that stays in order, exactly the steps that meet `TakeOk` lead to
one. -/
theorem ThreadStep.staysInOrder_iff (step : ThreadStep users s l t) (wf : s.ledger.WellFormed)
    (now : StaysInOrder users s) : StaysInOrder users t ↔ TakeOk s l := by
  have effect := step.ledger
  rw [ConcurrentTcp.staysInOrder_iff wf] at now
  rw [ConcurrentTcp.staysInOrder_iff (effect.wellFormed wf)]
  obtain ⟨order, done⟩ := now
  constructor
  · rintro ⟨-, next⟩
    cases l with
    | take task =>
        have htaken : task ∈ t.taken := by
          cases step with
          | take htasks hworkers =>
              show task ∈ (_ ++ Worker.taken task :: _).filterMap Worker.taken?
              rw [filterMap_workers]
              exact List.mem_append_right _ List.mem_cons_self
        have heq : t.ledger = s.ledger := effect
        exact noEarlier_iff.mpr (heq ▸ next task htaken)
    | _ => trivial
  · intro ok
    constructor
    · cases l with
      | push task => exact effect ▸ order.arrive _
      | start task receiveBuffer =>
          obtain ⟨htaken, heq⟩ := effect
          rw [heq]
          exact (Ledger.inOrder_start_iff wf order (waiting_of_taken htaken)).mpr
            (done task htaken)
      | finish task packetType receiveBuffer before events out => exact effect ▸ order.finish _
      | accept c socketFd => exact effect ▸ order
      | server => exact effect ▸ order
      | recv c bytes => exact effect ▸ order
      | disconnect c => exact effect ▸ order
      | take task => exact effect ▸ order
    · intro task htaken
      rcases step.taken task htaken with hold | rfl
      · exact step.earlierDone wf hold (done task hold)
      · have heq : t.ledger = s.ledger := effect
        rw [heq]
        exact noEarlier_iff.mp ok

theorem wellFormed_initial : ServerState.initial.ledger.WellFormed where
  nodup := Multiset.nodup_zero
  known := by
    intro k
    apply iff_of_false (Multiset.notMem_zero k)
    show ¬ k.2 < 0
    omega
  running_le := le_refl _

theorem staysInOrder_initial (users : DatabaseHandler) : StaysInOrder users .initial := by
  rw [ConcurrentTcp.staysInOrder_iff wellFormed_initial]
  refine ⟨⟨fun c => rfl, Multiset.nodup_zero⟩, ?_⟩
  intro task htaken
  cases htaken

end Order

/-- In every run whose workers take a packet only when no earlier one of its
connection is in flight, all packets are served in order. These are exactly the runs
in which the order holds, and cannot be broken by a worker that calls a handler. -/
theorem requests_in_order_iff {users : DatabaseHandler} {s : ServerState}
    {moves : List (Transition.Move ServerState ThreadLabel)}
    (run : Run (threadSystem users) .initial moves s) :
    ((∀ m ∈ moves, TakeOk m.pre m.label) → ∀ m ∈ moves, ServedInOrder m.post) ∧
      ((∀ m ∈ moves, StaysInOrder users m.post) ↔ ∀ m ∈ moves, TakeOk m.pre m.label) := by
  have keeps : ∀ s l t, s.ledger.WellFormed → (threadSystem users).step s l t →
      t.ledger.WellFormed := by
    rintro s l t now ⟨-, step⟩
    exact step.ledger.wellFormed now
  have wf := (run.invariant keeps wellFormed_initial).2
  have exact_step : ∀ s l t, s.ledger.WellFormed ∧ StaysInOrder users s →
      (threadSystem users).step s l t →
      (t.ledger.WellFormed ∧ StaysInOrder users t ↔ TakeOk s l) := by
    rintro s l t ⟨now, order⟩ ⟨-, step⟩
    rw [and_iff_right (step.ledger.wellFormed now)]
    exact step.staysInOrder_iff now order
  have all := run.invariant_iff exact_step ⟨wellFormed_initial, staysInOrder_initial users⟩
  have key : (∀ m ∈ moves, StaysInOrder users m.post) ↔ ∀ m ∈ moves, TakeOk m.pre m.label := by
    rw [← all]
    exact forall₂_congr fun m hm => (and_iff_right (wf m hm).2).symm
  exact ⟨fun ok m hm => (key.mpr ok m hm).1, key⟩

/-- Two packets in one `recv`: the handler of the second is called first. -/
theorem two_frames_out_of_order :
    ∃ s, Reachable (threadSystem exampleUsers) s ∧ s.received 0 = logoutPing ∧
      ¬ ServedInOrder s := by
  obtain ⟨s, reach, running, hreceived, htasks, hworkers, hstarted, connection, hlive, -⟩ :=
    exists_two_frames exampleUsers
  have held := reach.step ⟨running, @ThreadStep.take _ _ _ _ [] _ htasks hworkers⟩
  have hbuffer : ∀ c, s.connections 0 = some c → connection.buffer = c.buffer := by
    intro c hc
    cases hlive.symm.trans hc
    rfl
  have served := held.step
    ⟨running, @ThreadStep.start _ _ _ connection.buffer [] _ rfl hbuffer⟩
  refine ⟨_, served, hreceived, fun order => ?_⟩
  have starts := order.starts 0
  simp only [hstarted] at starts
  exact absurd starts (by decide)

/-- A single ping is served in order. -/
theorem one_ping_in_order :
    ∃ s moves, Run (threadSystem exampleUsers) .initial moves s ∧ s.started = [pingTask] ∧
      ∀ m ∈ moves, ServedInOrder m.post := by
  obtain ⟨s, ⟨start, moves, rfl, run, ok⟩, hstarted, -⟩ := exists_ping_run exampleUsers
    TakeOk (fun _ _ _ => trivial) (fun _ => trivial) (fun _ _ _ => trivial)
    (fun _ _ => trivial)
    (fun s hflight other hmem _ => by
      rw [hflight] at hmem
      cases List.mem_singleton.mp hmem
      exact Nat.lt_irrefl _)
    (fun _ _ _ => trivial) fun _ _ _ _ _ => trivial
  exact ⟨s, moves, run, hstarted, (requests_in_order_iff run).1 ok⟩

end ConcurrentTcp
