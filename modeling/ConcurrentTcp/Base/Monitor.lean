import Mathlib.Data.Finset.Insert
import Mathlib.Data.Finset.Erase

/-!
Condition variables.

The threads blocked in `wait` are a set. `notify_one` takes at least one of them out of
it, if there is one, `notify_all` all of them, and a spurious wake-up any. `Signalled`
says that work does not lie while everybody sleeps: a notification is still to come, or
some thread is awake. Its rules are the ways in which a step of a monitor keeps it.
-/

namespace ConcurrentTcp.Monitor

variable {Thread : Type}

/-! ### Notifications -/

/-- `notify_one` -/
structure NotifyOne (waiting waiting' : Finset Thread) : Prop where
  subset : waiting' ⊆ waiting
  wakes : waiting.Nonempty → waiting' ≠ waiting

theorem notifyOne_empty : NotifyOne (∅ : Finset Thread) ∅ where
  subset := Finset.Subset.refl _
  wakes := fun h => absurd h Finset.not_nonempty_empty

/-- Where somebody waits, one of those who wait is woken. -/
theorem NotifyOne.exists_woken {waiting waiting' : Finset Thread}
    (notify : NotifyOne waiting waiting') (h : waiting.Nonempty) :
    ∃ t ∈ waiting, t ∉ waiting' := by
  by_contra none
  have kept : waiting ⊆ waiting' := by
    intro t ht
    by_contra hwoken
    exact none ⟨t, ht, hwoken⟩
  exact notify.wakes h (Finset.Subset.antisymm notify.subset kept)

/-- The waiting threads were not all of them, or one has been woken. -/
theorem NotifyOne.exists_awake [Nonempty Thread] {waiting waiting' : Finset Thread}
    (notify : NotifyOne waiting waiting') : ∃ t, t ∉ waiting' := by
  obtain ⟨t⟩ := ‹Nonempty Thread›
  by_cases ht : t ∈ waiting
  · obtain ⟨u, -, hu⟩ := notify.exists_woken ⟨t, ht⟩
    exact ⟨u, hu⟩
  · exact ⟨t, fun h => ht (notify.subset h)⟩

/-! ### No lost wake-up -/

/-- Work that nobody is awake for has its notification still to come. -/
def Signalled (work pending : Prop) (waiting : Finset Thread) : Prop :=
  work → pending ∨ ∃ t, t ∉ waiting

namespace Signalled

variable {work pending : Prop} {waiting : Finset Thread}

/-- Work comes with a notification. -/
theorem of_pending (h : pending) : Signalled work pending waiting := fun _ => .inl h

theorem of_awake {t : Thread} (h : t ∉ waiting) : Signalled work pending waiting :=
  fun _ => .inr ⟨t, h⟩

/-- A thread blocks when there is no work. -/
theorem of_idle (h : ¬ work) : Signalled work pending waiting := fun hwork => absurd hwork h

/-- A notification has been given. -/
theorem of_notify [Nonempty Thread] {before : Finset Thread} (notify : NotifyOne before waiting) :
    Signalled work pending waiting := fun _ => .inr notify.exists_awake

/-- Threads wake up, and there is no new work. -/
theorem mono {work' pending' : Prop} {waiting' : Finset Thread}
    (h : Signalled work pending waiting) (hwork : work' → work) (hpending : pending → pending')
    (hwaiting : waiting' ⊆ waiting) : Signalled work' pending' waiting' := by
  intro now
  rcases h (hwork now) with soon | ⟨t, awake⟩
  · exact .inl (hpending soon)
  · exact .inr ⟨t, fun ht => awake (hwaiting ht)⟩

end Signalled

end ConcurrentTcp.Monitor
