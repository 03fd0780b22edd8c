/-!
Labelled transition systems, their runs, and invariants of runs.

`Run` records every move it makes, so that a statement about "every step of the
run" or "every state reached" is a statement about the recorded moves.
`Run.invariant_iff` is the exact form of a conditional invariant: when a step
from a good state leads to a good state precisely if it meets `ok`, a run from a
good state visits good states only precisely if all its steps meet `ok`.
`Run.simulates` carries a forward simulation from steps to runs.
-/

namespace ConcurrentTcp.Transition

/-- A labelled transition system. -/
structure System (State Label : Type) where
  init : State → Prop
  step : State → Label → State → Prop

/-- One recorded step of a run. -/
structure Move (State Label : Type) where
  pre : State
  label : Label
  post : State

variable {State Label : Type}

/-- `Run S s moves t`: the system goes from `s` to `t` by exactly `moves`. -/
inductive Run (S : System State Label) : State → List (Move State Label) → State → Prop where
  | nil (s : State) : Run S s [] s
  | cons {s t u : State} {l : Label} {moves : List (Move State Label)} :
      S.step s l t → Run S t moves u → Run S s (⟨s, l, t⟩ :: moves) u

/-- Reachable from an initial state. -/
def Reachable (S : System State Label) (s : State) : Prop :=
  ∃ start moves, S.init start ∧ Run S start moves s

namespace Run

variable {S : System State Label}

theorem append {s t u : State} {first second : List (Move State Label)}
    (left : Run S s first t) (right : Run S t second u) : Run S s (first ++ second) u := by
  induction left with
  | nil => exact right
  | cons step _ ih => exact .cons step (ih right)

theorem one {s t : State} {l : Label} (step : S.step s l t) : Run S s [⟨s, l, t⟩] t :=
  .cons step (.nil t)

/-- Every recorded move is a step of the system. -/
theorem steps {s t : State} {moves : List (Move State Label)} (run : Run S s moves t) :
    ∀ m ∈ moves, S.step m.pre m.label m.post := by
  induction run with
  | nil => simp
  | cons step _ ih => exact List.forall_mem_cons.mpr ⟨step, ih⟩

/-- A step-wise conditional invariant holds before and after every move of a
run whose moves all meet the condition. -/
theorem invariant_of_meets {I : State → Prop} {ok : State → Label → Prop}
    (keeps : ∀ s l t, I s → ok s l → S.step s l t → I t)
    {s t : State} {moves : List (Move State Label)} (run : Run S s moves t) (start : I s)
    (meets : ∀ m ∈ moves, ok m.pre m.label) :
    I t ∧ ∀ m ∈ moves, I m.pre ∧ I m.post := by
  induction run with
  | nil => exact ⟨start, by simp⟩
  | cons step _ ih =>
      obtain ⟨now, later⟩ := List.forall_mem_cons.mp meets
      have next := keeps _ _ _ start now step
      obtain ⟨last, moves⟩ := ih next later
      exact ⟨last, List.forall_mem_cons.mpr ⟨⟨start, next⟩, moves⟩⟩

/-- The induction rule for what a state says about the moves that led to it. -/
theorem history {P : List (Move State Label) → State → Prop}
    (keeps : ∀ past s l t, P past s → S.step s l t → P (past ++ [⟨s, l, t⟩]) t)
    {s t : State} {moves : List (Move State Label)} (run : Run S s moves t) (start : P [] s) :
    P moves t := by
  suffices h : ∀ past, P past s → P (past ++ moves) t from h [] start
  clear start
  induction run with
  | nil => simp
  | cons step _ ih =>
      intro past now
      have later := ih _ (keeps past _ _ _ now step)
      simpa using later

/-- A run can be cut anywhere. -/
theorem append_inv {s u : State} {first second : List (Move State Label)}
    (run : Run S s (first ++ second) u) : ∃ t, Run S s first t ∧ Run S t second u := by
  induction first generalizing s with
  | nil => exact ⟨s, .nil s, run⟩
  | cons m first ih =>
      cases run with
      | cons step later =>
          obtain ⟨t, left, right⟩ := ih later
          exact ⟨t, .cons step left, right⟩

/-- A run to a later move passes through the state before it. -/
theorem split {s u : State} {past rest : List (Move State Label)} {m : Move State Label}
    (run : Run S s (past ++ m :: rest) u) : Run S s past m.pre ∧ S.step m.pre m.label m.post := by
  induction past generalizing s with
  | nil =>
      cases run with
      | cons step _ => exact ⟨.nil _, step⟩
  | cons first past ih =>
      cases run with
      | cons step later =>
          obtain ⟨before, here⟩ := ih later
          exact ⟨.cons step before, here⟩

/-- A step-wise invariant holds before and after every move of a run. -/
theorem invariant {I : State → Prop} (keeps : ∀ s l t, I s → S.step s l t → I t)
    {s t : State} {moves : List (Move State Label)} (run : Run S s moves t) (start : I s) :
    I t ∧ ∀ m ∈ moves, I m.pre ∧ I m.post := by
  have always : ∀ s l t, I s → (fun _ _ => True : State → Label → Prop) s l → S.step s l t → I t :=
    fun s l t hs _ => keeps s l t hs
  exact run.invariant_of_meets always start fun _ _ => trivial

/-- The exact form: from a good state, the states reached are all good if and
only if the steps taken all meet the condition. -/
theorem invariant_iff {I : State → Prop} {ok : State → Label → Prop}
    (exact_step : ∀ s l t, I s → S.step s l t → (I t ↔ ok s l))
    {s t : State} {moves : List (Move State Label)} (run : Run S s moves t) (start : I s) :
    (∀ m ∈ moves, I m.post) ↔ ∀ m ∈ moves, ok m.pre m.label := by
  induction run with
  | nil => simp
  | cons step _ ih =>
      have here := exact_step _ _ _ start step
      rw [List.forall_mem_cons, List.forall_mem_cons]
      constructor
      · rintro ⟨next, later⟩
        exact ⟨here.mp next, (ih next).mp later⟩
      · rintro ⟨now, later⟩
        have next := here.mpr now
        exact ⟨next, (ih next).mpr later⟩

/-- The exact form for a property of moves: when a good move is one that meets the
condition, and good moves keep the invariant that tells so, all moves of a run are
good if and only if they all meet the condition. -/
theorem moves_iff {I : State → Prop} {good ok : Move State Label → Prop}
    (exact_step : ∀ m, I m.pre → S.step m.pre m.label m.post → (good m ↔ ok m))
    (keeps : ∀ m, I m.pre → S.step m.pre m.label m.post → good m → I m.post)
    {s t : State} {moves : List (Move State Label)} (run : Run S s moves t) (start : I s) :
    (∀ m ∈ moves, good m) ↔ ∀ m ∈ moves, ok m := by
  induction run with
  | nil => simp
  | @cons s t u l moves step _ ih =>
      have here := exact_step ⟨s, l, t⟩ start step
      have next := keeps ⟨s, l, t⟩ start step
      rw [List.forall_mem_cons, List.forall_mem_cons]
      constructor
      · rintro ⟨now, later⟩
        exact ⟨here.mp now, (ih (next now)).mp later⟩
      · rintro ⟨now, later⟩
        exact ⟨here.mpr now, (ih (next (here.mpr now))).mpr later⟩

/-- Where the condition is only enough: a move that meets it is good and keeps the
invariant. -/
theorem moves_of_meets {I : State → Prop} {good ok : Move State Label → Prop}
    (sound : ∀ m, I m.pre → S.step m.pre m.label m.post → ok m → good m ∧ I m.post)
    {s t : State} {moves : List (Move State Label)} (run : Run S s moves t) (start : I s)
    (meets : ∀ m ∈ moves, ok m) : ∀ m ∈ moves, good m := by
  induction run with
  | nil => simp
  | @cons s t u l moves step _ ih =>
      obtain ⟨now, later⟩ := List.forall_mem_cons.mp meets
      obtain ⟨here, next⟩ := sound ⟨s, l, t⟩ start step now
      exact List.forall_mem_cons.mpr ⟨here, ih next later⟩

end Run

namespace Reachable

variable {S : System State Label}

theorem initial {s : State} (h : S.init s) : Reachable S s := ⟨s, [], h, .nil s⟩

theorem step {s t : State} {l : Label} (h : Reachable S s) (next : S.step s l t) :
    Reachable S t := by
  obtain ⟨start, moves, init, run⟩ := h
  exact ⟨start, moves ++ [⟨s, l, t⟩], init, run.append (.one next)⟩

/-- The induction rule for reachable states. -/
theorem invariant {I : State → Prop} (start : ∀ s, S.init s → I s)
    (keeps : ∀ s l t, I s → S.step s l t → I t) {s : State} (h : Reachable S s) : I s := by
  obtain ⟨first, moves, init, run⟩ := h
  exact (run.invariant keeps (start first init)).1

end Reachable

/-! ### Simulation -/

/-- What an observer of some labels sees of a run. -/
def observations {Obs : Type} (observed : Label → Option Obs) (moves : List (Move State Label)) :
    List Obs :=
  moves.filterMap fun m => observed m.label

/-- A forward simulation: when the other system follows each step that meets `ok` with the
same observations, it follows every run of such steps. -/
theorem Run.simulates {State' Label' Obs : Type} {S : System State Label}
    {T : System State' Label'} {observed : Label → Option Obs} {observed' : Label' → Option Obs}
    {R : State → State' → Prop} {ok : State → Label → Prop}
    (follows : ∀ s l t s', R s s' → ok s l → S.step s l t → ∃ moves' t', Run T s' moves' t' ∧
      R t t' ∧ observations observed' moves' = (observed l).toList)
    {s t : State} {s' : State'} {moves : List (Move State Label)} (run : Run S s moves t)
    (start : R s s') (meets : ∀ m ∈ moves, ok m.pre m.label) :
    ∃ moves' t', Run T s' moves' t' ∧ R t t' ∧
      observations observed' moves' = observations observed moves := by
  induction run generalizing s' with
  | nil => exact ⟨[], s', .nil s', start, rfl⟩
  | cons step _ ih =>
      obtain ⟨now, later⟩ := List.forall_mem_cons.mp meets
      obtain ⟨first, u, reached, related, seen⟩ := follows _ _ _ _ start now step
      obtain ⟨rest, t', next, last, seenLater⟩ := ih related later
      refine ⟨first ++ rest, t', reached.append next, last, ?_⟩
      unfold observations at seen seenLater ⊢
      rw [List.filterMap_append, seen, seenLater, List.filterMap_cons]
      cases observed _ <;> rfl

/-- A part of the state with the labels that concern it. -/
def projection {State' Label' : Type} (part : State → State') (visible : Label → Option Label')
    (moves : List (Move State Label)) : List (Move State' Label') :=
  moves.filterMap fun m => (visible m.label).map fun l => ⟨part m.pre, l, part m.post⟩

/-- A run of the whole is a run of a part, when the other steps leave the part as it is. -/
theorem Run.project {State' Label' : Type} {S : System State Label} {T : System State' Label'}
    {part : State → State'} {visible : Label → Option Label'} {I : State → Prop}
    (keeps : ∀ s l t, I s → S.step s l t → I t)
    (hidden : ∀ s l t, I s → S.step s l t → visible l = none → part t = part s)
    (seen : ∀ s l t l', I s → S.step s l t → visible l = some l' → T.step (part s) l' (part t))
    {s t : State} {moves : List (Move State Label)} (run : Run S s moves t) (start : I s) :
    Run T (part s) (projection part visible moves) (part t) := by
  induction run with
  | nil => exact .nil _
  | @cons s t u l moves step _ ih =>
      have later := ih (keeps _ _ _ start step)
      unfold projection at later ⊢
      rw [List.filterMap_cons]
      cases hl : visible l with
      | none =>
          rw [← hidden _ _ _ start step hl]
          exact later
      | some l' => exact .cons (seen _ _ _ _ start step hl) later

/-- Reachable by steps that all meet `ok`. -/
def ReachableBy (S : System State Label) (ok : State → Label → Prop) (s : State) : Prop :=
  ∃ start moves, S.init start ∧ Run S start moves s ∧ ∀ m ∈ moves, ok m.pre m.label

namespace ReachableBy

variable {S : System State Label} {ok : State → Label → Prop}

theorem initial {s : State} (h : S.init s) : ReachableBy S ok s := ⟨s, [], h, .nil s, by simp⟩

theorem step {s t : State} {l : Label} (h : ReachableBy S ok s) (next : S.step s l t)
    (meets : ok s l) : ReachableBy S ok t := by
  obtain ⟨start, moves, init, run, all⟩ := h
  refine ⟨start, moves ++ [⟨s, l, t⟩], init, run.append (.one next), fun m hm => ?_⟩
  rcases List.mem_append.mp hm with hold | hnew
  · exact all m hold
  · cases List.mem_singleton.mp hnew
    exact meets

end ReachableBy

end ConcurrentTcp.Transition
