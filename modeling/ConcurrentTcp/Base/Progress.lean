import ConcurrentTcp.Base.Transition

/-!
What a system can still do.

`LeadsTo S ok s t` is a run from `s` to `t` whose steps all meet `ok`. To show that a kind of
state can be reached, `LeadsTo.of_measure` asks for one step that keeps the invariant and
lessens a measure, as long as the state is not of that kind. `LeadsTo.embed` carries runs of a
part over to the whole.
-/

namespace ConcurrentTcp.Transition

variable {State Label : Type} {S : System State Label} {ok : State → Label → Prop}

/-- `t` can be reached from `s` by steps that meet `ok`. -/
def LeadsTo (S : System State Label) (ok : State → Label → Prop) (s t : State) : Prop :=
  ∃ moves, Run S s moves t ∧ ∀ m ∈ moves, ok m.pre m.label

namespace LeadsTo

theorem refl (s : State) : LeadsTo S ok s s := ⟨[], .nil s, by simp⟩

theorem one {s t : State} {l : Label} (step : S.step s l t) (meets : ok s l) :
    LeadsTo S ok s t :=
  ⟨_, .one step, by simpa using meets⟩

theorem trans {s t u : State} (first : LeadsTo S ok s t) (second : LeadsTo S ok t u) :
    LeadsTo S ok s u := by
  obtain ⟨before, run, here⟩ := first
  obtain ⟨after, next, later⟩ := second
  exact ⟨before ++ after, run.append next, List.forall_mem_append.mpr ⟨here, later⟩⟩

/-- One step first. -/
theorem head {s t u : State} {l : Label} (step : S.step s l t) (meets : ok s l)
    (later : LeadsTo S ok t u) : LeadsTo S ok s u :=
  (one step meets).trans later

/-- What each such step keeps. -/
theorem invariant {I : State → Prop} (keeps : ∀ s l t, I s → ok s l → S.step s l t → I t)
    {s t : State} (h : LeadsTo S ok s t) (start : I s) : I t := by
  obtain ⟨moves, run, meets⟩ := h
  exact (run.invariant_of_meets keeps start meets).1

/-- The rule of progress: as long as the goal is not reached, a step keeps the invariant and
lessens the measure. -/
theorem of_measure {I goal : State → Prop} (measure : State → Nat)
    (progress : ∀ s, I s → ¬ goal s →
      ∃ l t, S.step s l t ∧ ok s l ∧ I t ∧ measure t < measure s)
    {s : State} (start : I s) : ∃ t, LeadsTo S ok s t ∧ I t ∧ goal t := by
  induction hn : measure s using Nat.strongRecOn generalizing s with
  | ind n ih =>
      by_cases reached : goal s
      · exact ⟨s, refl s, start, reached⟩
      obtain ⟨l, t, step, meets, next, less⟩ := progress s start reached
      obtain ⟨u, later, last, there⟩ := ih (measure t) (hn ▸ less) next rfl
      exact ⟨u, head step meets later, last, there⟩

/-- A run of a part is a run of the whole that can take its steps. -/
theorem embed {State' Label' : Type} {T : System State' Label'} {ok' : State' → Label' → Prop}
    {whole : State → State'} {label : Label → Label'}
    (follows : ∀ s l t, ok s l → S.step s l t →
      T.step (whole s) (label l) (whole t) ∧ ok' (whole s) (label l))
    {s t : State} (h : LeadsTo S ok s t) : LeadsTo T ok' (whole s) (whole t) := by
  obtain ⟨moves, run, meets⟩ := h
  induction run with
  | nil s => exact refl (whole s)
  | cons step _ ih =>
      obtain ⟨now, later⟩ := List.forall_mem_cons.mp meets
      obtain ⟨next, meets'⟩ := follows _ _ _ now step
      exact head next meets' (ih later)

end LeadsTo

end ConcurrentTcp.Transition
