import ConcurrentTcp.Base.Monitor
import ConcurrentTcp.Base.Transition
import Mathlib.Logic.Function.Basic

/-!
`ReadWriteLock` (`server/rw_lock.hpp`).

Any threads call `read_lock` and `read_unlock`, or `write_lock` and `write_unlock`, in
pairs, as the two guards do. A section under `mtx` is one step: the predicate of `wait` is
tested, and the thread goes on or blocks; the notifications of the unlocks are made under
the mutex. Both locks wait for `!is_locked`, so that the lock has one holder at a time,
readers included: it refines a lock with a single holder (`lockSystem_refines_holder`).
-/

namespace ConcurrentTcp

open Transition Monitor

/-! ### The lock -/

structure ReadWriteLock where
  isLocked : Bool
  isWriterActive : Bool
deriving DecidableEq, Repr

inductive LockMode where
  | read
  | write
deriving DecidableEq, Repr

namespace ReadWriteLock

def initial : ReadWriteLock where
  isLocked := false
  isWriterActive := false

/-- The predicate of both waits. -/
def canLock (lock : ReadWriteLock) : Bool := !lock.isLocked && !lock.isWriterActive

/-- `read_lock`, once the predicate holds -/
def readLock (lock : ReadWriteLock) : ReadWriteLock := { lock with isLocked := true }

/-- `write_lock`, once the predicate holds -/
def writeLock (_ : ReadWriteLock) : ReadWriteLock where
  isWriterActive := true
  isLocked := true

def acquire (lock : ReadWriteLock) : LockMode → ReadWriteLock
  | .read => lock.readLock
  | .write => lock.writeLock

/-- `read_unlock` leaves `is_writer_active` alone. -/
def readUnlock (lock : ReadWriteLock) : ReadWriteLock := { lock with isLocked := false }

def writeUnlock (_ : ReadWriteLock) : ReadWriteLock where
  isWriterActive := false
  isLocked := false

theorem canLock_acquire (lock : ReadWriteLock) (mode : LockMode) :
    (lock.acquire mode).canLock = false := by
  cases mode <;> rfl

end ReadWriteLock

/-! ### Threads -/

/-- A thread: in no section of the lock, inside `cv.wait` after it has blocked there, or
between its lock and its unlock. -/
inductive LockThread where
  | outside
  | inWait (mode : LockMode)
  | holding (mode : LockMode)
deriving DecidableEq, Repr

/-- `waiting` are the threads blocked on `cv`; one that is `inWait` and not blocked has
been woken. -/
structure LockState (Thread : Type) where
  lock : ReadWriteLock
  threads : Thread → LockThread
  waiting : Finset Thread

def LockState.initial (Thread : Type) : LockState Thread where
  lock := .initial
  threads := fun _ => .outside
  waiting := ∅

namespace LockState

variable {Thread : Type}

/-- Woken, and yet to test the predicate again. -/
def Woken (s : LockState Thread) (t : Thread) : Prop :=
  (∃ mode, s.threads t = .inWait mode) ∧ t ∉ s.waiting

/-- About to test the predicate for `mode`: a call that begins, or a woken waiter. -/
def AtPredicate (s : LockState Thread) (t : Thread) (mode : LockMode) : Prop :=
  s.threads t = .outside ∨ (s.threads t = .inWait mode ∧ t ∉ s.waiting)

theorem AtPredicate.not_holding {s : LockState Thread} {t : Thread} {mode : LockMode}
    (h : s.AtPredicate t mode) (mode' : LockMode) : s.threads t ≠ .holding mode' := by
  rcases h with h | ⟨h, -⟩
  · simp [h]
  · simp [h]

end LockState

inductive LockLabel (Thread : Type) where
  | acquire (t : Thread) (mode : LockMode)
  | wait (t : Thread) (mode : LockMode)
  | unlock (t : Thread) (mode : LockMode)
  | wake

/-! ### A lock with a single holder -/

section Holder

variable {Thread : Type}

/-- What the lock is for: it has at most one holder, which takes it when it is free. -/
inductive HolderStep : Option (Thread × LockMode) → LockLabel Thread →
    Option (Thread × LockMode) → Prop where
  | acquire (t : Thread) (mode : LockMode) :
      HolderStep none (.acquire t mode) (some (t, mode))
  | wait (holder : Option (Thread × LockMode)) (t : Thread) (mode : LockMode) :
      holder.isSome = true → HolderStep holder (.wait t mode) holder
  | unlock (t : Thread) (mode : LockMode) :
      HolderStep (some (t, mode)) (.unlock t mode) none
  | wake (holder : Option (Thread × LockMode)) : HolderStep holder .wake holder

def holderSystem (Thread : Type) : System (Option (Thread × LockMode)) (LockLabel Thread) where
  init := fun holder => holder = none
  step := HolderStep

/-- The flags that go with a holder. -/
def ReadWriteLock.heldIn : Option LockMode → ReadWriteLock
  | none => .initial
  | some mode => ReadWriteLock.initial.acquire mode

theorem ReadWriteLock.canLock_heldIn (mode : Option LockMode) :
    (heldIn mode).canLock = mode.isNone := by
  rcases mode with _ | _ | _ <;> rfl

theorem ReadWriteLock.isLocked_heldIn (mode : Option LockMode) :
    (heldIn mode).isLocked = mode.isSome := by
  rcases mode with _ | _ | _ <;> rfl

theorem ReadWriteLock.isWriterActive_heldIn (mode : Option LockMode) :
    (heldIn mode).isWriterActive = true ↔ mode = some .write := by
  rcases mode with _ | _ | _ <;> simp [heldIn, initial, acquire, readLock, writeLock]

/-- The threads that are between lock and unlock are the holder. -/
def HoldsLock (threads : Thread → LockThread) (holder : Option (Thread × LockMode)) : Prop :=
  ∀ t mode, threads t = .holding mode ↔ holder = some (t, mode)

/-- The flags and the threads say who holds the lock. -/
structure HeldBy (s : LockState Thread) (holder : Option (Thread × LockMode)) : Prop where
  lock : s.lock = .heldIn (holder.map Prod.snd)
  threads : HoldsLock s.threads holder

theorem HeldBy.canLock {s : LockState Thread} {holder : Option (Thread × LockMode)}
    (h : HeldBy s holder) : s.lock.canLock = true ↔ holder = none := by
  rw [h.lock, ReadWriteLock.canLock_heldIn]
  cases holder <;> simp

end Holder

/-! ### Steps -/

section Lock

variable {Thread : Type} [DecidableEq Thread]

inductive LockStep : LockState Thread → LockLabel Thread → LockState Thread → Prop where
  /-- The predicate holds. -/
  | acquire {s : LockState Thread} {t : Thread} {mode : LockMode} : s.AtPredicate t mode →
      s.lock.canLock = true →
      LockStep s (.acquire t mode)
        { s with
          lock := s.lock.acquire mode
          threads := Function.update s.threads t (.holding mode) }
  /-- The predicate does not hold: the mutex is released and the thread blocks. -/
  | wait {s : LockState Thread} {t : Thread} {mode : LockMode} : s.AtPredicate t mode →
      s.lock.canLock = false →
      LockStep s (.wait t mode)
        { s with
          threads := Function.update s.threads t (.inWait mode)
          waiting := insert t s.waiting }
  /-- `read_unlock`, with `notify_one` -/
  | readUnlock {s : LockState Thread} {t : Thread} {waiting : Finset Thread} :
      s.threads t = .holding .read → NotifyOne s.waiting waiting →
      LockStep s (.unlock t .read)
        { lock := s.lock.readUnlock
          threads := Function.update s.threads t .outside
          waiting := waiting }
  /-- `write_unlock`, with `notify_all` -/
  | writeUnlock {s : LockState Thread} {t : Thread} : s.threads t = .holding .write →
      LockStep s (.unlock t .write)
        { lock := s.lock.writeUnlock
          threads := Function.update s.threads t .outside
          waiting := ∅ }
  /-- Spurious wake-ups. -/
  | wake {s : LockState Thread} {waiting : Finset Thread} : waiting ⊆ s.waiting →
      LockStep s .wake { s with waiting := waiting }

def lockSystem (Thread : Type) [DecidableEq Thread] :
    System (LockState Thread) (LockLabel Thread) where
  init := fun s => s = .initial Thread
  step := LockStep

/-! ### The lock has a single holder -/

theorem HoldsLock.acquire {threads : Thread → LockThread} (h : HoldsLock threads none) (t : Thread)
    (mode : LockMode) :
    HoldsLock (Function.update threads t (.holding mode)) (some (t, mode)) := by
  intro u mode'
  by_cases hu : u = t
  · subst hu
    simp
  · have ne : t ≠ u := fun heq => hu heq.symm
    simpa [Function.update_of_ne hu, ne] using h u mode'

theorem HoldsLock.release {threads : Thread → LockThread} {t : Thread} {mode : LockMode}
    (h : HoldsLock threads (some (t, mode))) :
    HoldsLock (Function.update threads t .outside) none := by
  intro u mode'
  by_cases hu : u = t
  · subst hu
    simp
  · have ne : t ≠ u := fun heq => hu heq.symm
    simpa [Function.update_of_ne hu, ne] using h u mode'

/-- A thread that did not hold the lock blocks. -/
theorem HoldsLock.wait {threads : Thread → LockThread} {holder : Option (Thread × LockMode)}
    (h : HoldsLock threads holder) {t : Thread} (ht : ∀ mode, threads t ≠ .holding mode)
    (mode : LockMode) : HoldsLock (Function.update threads t (.inWait mode)) holder := by
  intro u mode'
  by_cases hu : u = t
  · subst hu
    have before := (h u mode').not.mp (ht mode')
    simpa using before
  · simpa [Function.update_of_ne hu] using h u mode'

variable {s s' : LockState Thread} {l : LockLabel Thread}

/-- A step of the lock is one of the lock with a single holder. -/
theorem LockStep.heldBy (step : LockStep s l s') {holder : Option (Thread × LockMode)}
    (h : HeldBy s holder) : ∃ holder', HolderStep holder l holder' ∧ HeldBy s' holder' := by
  cases step with
  | @acquire t mode hat hcan =>
      obtain rfl := h.canLock.mp hcan
      have hlock : s.lock = .initial := h.lock
      exact ⟨some (t, mode), .acquire t mode, congrArg (·.acquire mode) hlock,
        h.threads.acquire t mode⟩
  | @wait t mode hat hcannot =>
      have held : holder ≠ none := by
        intro hnone
        simp [h.canLock.mpr hnone] at hcannot
      exact ⟨holder, .wait holder t mode (Option.isSome_iff_ne_none.mpr held), h.lock,
        h.threads.wait hat.not_holding mode⟩
  | @readUnlock t waiting hholding notify =>
      obtain rfl := (h.threads t .read).mp hholding
      have hlock : s.lock = ReadWriteLock.initial.acquire .read := h.lock
      exact ⟨none, .unlock t .read, congrArg (·.readUnlock) hlock, h.threads.release⟩
  | @writeUnlock t hholding =>
      obtain rfl := (h.threads t .write).mp hholding
      exact ⟨none, .unlock t .write, rfl, h.threads.release⟩
  | wake hsubset => exact ⟨holder, .wake holder, h.lock, h.threads⟩

/-- Every reachable state of the lock is one of the lock with a single holder. -/
theorem lockSystem_refines_holder (h : Reachable (lockSystem Thread) s) :
    ∃ holder, Reachable (holderSystem Thread) holder ∧ HeldBy s holder := by
  refine h.invariant (I := fun s => ∃ holder, Reachable (holderSystem Thread) holder ∧
    HeldBy s holder) ?_ ?_
  · rintro start rfl
    exact ⟨none, .initial rfl, rfl, by simp [HoldsLock, LockState.initial]⟩
  · rintro s l s' ⟨holder, reached, held⟩ step
    obtain ⟨holder', next, held'⟩ := LockStep.heldBy step held
    exact ⟨holder', reached.step next, held'⟩

/-! ### Wake-ups -/

/-- Those who are blocked are in `wait`, and while the lock is free and some are, one of
those who were has been woken. -/
structure WaitSound (s : LockState Thread) : Prop where
  inWait : ∀ t ∈ s.waiting, ∃ mode, s.threads t = .inWait mode
  woken : s.lock.canLock = true → s.waiting.Nonempty → ∃ t, s.Woken t

theorem LockStep.inWait (step : LockStep s l s')
    (h : ∀ t ∈ s.waiting, ∃ mode, s.threads t = .inWait mode) :
    ∀ t ∈ s'.waiting, ∃ mode, s'.threads t = .inWait mode := by
  intro u hu
  cases step with
  | @acquire t mode hat hcan =>
      obtain ⟨mode', hwaits⟩ := h u hu
      have ne : u ≠ t := by
        rintro rfl
        rcases hat with hat | ⟨-, hawake⟩
        · simp [hat] at hwaits
        · exact hawake hu
      exact ⟨mode', by simpa [Function.update_of_ne ne] using hwaits⟩
  | @wait t mode hat hcannot =>
      by_cases ht : u = t
      · subst ht
        exact ⟨mode, by simp⟩
      · obtain ⟨mode', hwaits⟩ := h u (Finset.mem_of_mem_insert_of_ne hu ht)
        exact ⟨mode', by simpa [Function.update_of_ne ht] using hwaits⟩
  | @readUnlock t waiting hholding notify =>
      obtain ⟨mode', hwaits⟩ := h u (notify.subset hu)
      have ne : u ≠ t := by
        rintro rfl
        simp [hholding] at hwaits
      exact ⟨mode', by simpa [Function.update_of_ne ne] using hwaits⟩
  | writeUnlock => exact absurd hu (Finset.notMem_empty u)
  | wake hsubset => exact h u (hsubset hu)

/-- An unlock that leaves waiters behind has woken one of them; a thread that comes in
between, and takes the lock before it, unlocks in its turn. -/
theorem LockStep.waitSound (step : LockStep s l s') (h : WaitSound s) : WaitSound s' where
  inWait := step.inWait h.inWait
  woken := by
    intro hcan hwaiting
    cases step with
    | acquire hat hfree => exact absurd hcan (by simp [ReadWriteLock.canLock_acquire])
    | wait hat hcannot => exact absurd hcan (by simp [hcannot])
    | @readUnlock t waiting hholding notify =>
        obtain ⟨u, hu, hwoken⟩ := notify.exists_woken (hwaiting.mono notify.subset)
        obtain ⟨mode, hwaits⟩ := h.inWait u hu
        have ne : u ≠ t := by
          rintro rfl
          simp [hholding] at hwaits
        exact ⟨u, ⟨mode, by simpa [Function.update_of_ne ne] using hwaits⟩, hwoken⟩
    | writeUnlock => exact absurd hwaiting Finset.not_nonempty_empty
    | wake hsubset =>
        obtain ⟨u, hwaits, hwoken⟩ := h.woken hcan (hwaiting.mono hsubset)
        exact ⟨u, hwaits, fun hu => hwoken (hsubset hu)⟩

theorem waitSound_of_reachable (h : Reachable (lockSystem Thread) s) : WaitSound s := by
  refine h.invariant (I := WaitSound) ?_ ?_
  · rintro start rfl
    exact ⟨fun t ht => absurd ht (Finset.notMem_empty t),
      fun _ hwaiting => absurd hwaiting Finset.not_nonempty_empty⟩
  · intro s l s' sound step
    exact LockStep.waitSound step sound

/-! ### Exclusion, and nobody stranded -/

/-- What the lock promises its threads, and what its flags say. -/
structure LockLaw (s : LockState Thread) : Prop where
  excludes : ∀ t u mode, s.threads t = .holding .write → s.threads u = .holding mode → u = t
  isLocked : s.lock.isLocked = true ↔ ∃ t mode, s.threads t = .holding mode
  isWriterActive : s.lock.isWriterActive = true ↔ ∃ t, s.threads t = .holding .write
  strandsNobody : ¬ ((∀ t mode, s.threads t ≠ .holding mode) ∧ s.waiting.Nonempty ∧
    ∀ t, ¬ s.Woken t)

/-- No writer shares the lock, the flags say who holds it, and a free lock with blocked threads
has woken one: in every reachable state of any number of threads, also with barging and with
spurious wake-ups. -/
theorem lockLaw_of_reachable (h : Reachable (lockSystem Thread) s) : LockLaw s := by
  obtain ⟨holder, -, hlock, hthreads⟩ := lockSystem_refines_holder h
  refine ⟨?_, ?_, ?_, ?_⟩
  · intro t u mode ht hu
    have first := (hthreads t .write).mp ht
    have second := (hthreads u mode).mp hu
    exact (Prod.mk.inj (Option.some.inj (second.symm.trans first))).1
  · rw [hlock, ReadWriteLock.isLocked_heldIn]
    constructor
    · intro hsome
      obtain ⟨⟨t, mode⟩, rfl⟩ : ∃ by', holder = some by' := by
        simpa [Option.isSome_iff_exists] using hsome
      exact ⟨t, mode, (hthreads t mode).mpr rfl⟩
    · rintro ⟨t, mode, ht⟩
      rw [(hthreads t mode).mp ht]
      rfl
  · rw [hlock, ReadWriteLock.isWriterActive_heldIn, Option.map_eq_some_iff]
    constructor
    · rintro ⟨⟨t, mode⟩, rfl, rfl⟩
      exact ⟨t, (hthreads t .write).mpr rfl⟩
    · rintro ⟨t, ht⟩
      exact ⟨(t, .write), (hthreads t .write).mp ht, rfl⟩
  · rintro ⟨nobody, hwaiting, asleep⟩
    have free : holder = none := by
      cases holder with
      | none => rfl
      | some by' => exact absurd ((hthreads by'.1 by'.2).mpr rfl) (nobody by'.1 by'.2)
    have can := (HeldBy.canLock ⟨hlock, hthreads⟩).mpr free
    obtain ⟨t, woken⟩ := (waitSound_of_reachable h).woken can hwaiting
    exact asleep t woken

end Lock

/-- Thread 0 reads while 1 and 2 come to wait; its unlock wakes 1 and leaves 2 blocked. -/
theorem lockLaw_of_reachable_unlock :
    ∃ s : LockState Nat, Reachable (lockSystem Nat) s ∧ s.waiting = {2} ∧ s.Woken 1 ∧
      s.lock = .initial ∧ LockLaw s := by
  have initial : Reachable (lockSystem Nat) (.initial Nat) := .initial rfl
  have reads := initial.step (@LockStep.acquire Nat _ _ 0 .read (.inl rfl) rfl)
  have first := reads.step (@LockStep.wait Nat _ _ 1 .write (.inl rfl) rfl)
  have second := first.step (@LockStep.wait Nat _ _ 2 .read (.inl rfl) rfl)
  have unlocks := second.step (@LockStep.readUnlock Nat _ _ 0 {2} rfl
    ⟨by decide, fun _ => by decide⟩)
  exact ⟨_, unlocks, rfl, ⟨⟨.write, rfl⟩, by decide⟩, rfl, lockLaw_of_reachable unlocks⟩

end ConcurrentTcp
