import ConcurrentTcp.Base.Interaction

/-!
Programs in an environment with a state.

`Evolves step s events t` says that the environment goes through these calls, with these
answers, from `s` to `t`. `Ensures step p s Q` is the weakest precondition for partial
correctness: a run of `p` that returns, in an environment that answers so from `s`, ends as `Q`
says. There is one rule for each construct of a program; a loop over a list has an invariant
of the elements it is done with.
-/

namespace ConcurrentTcp.Interaction

variable {Op : Type} {Ans : Op → Type} {Err α β σ State : Type}
  {step : State → Event Op Ans → State → Prop}

/-- The environment answers these calls. -/
inductive Evolves (step : State → Event Op Ans → State → Prop) :
    State → List (Event Op Ans) → State → Prop where
  | nil (s : State) : Evolves step s [] s
  | cons {s t u : State} {e : Event Op Ans} {events : List (Event Op Ans)} :
      step s e t → Evolves step t events u → Evolves step s (e :: events) u

namespace Evolves

theorem cons_inv {s u : State} {e : Event Op Ans} {events : List (Event Op Ans)}
    (h : Evolves step s (e :: events) u) : ∃ t, step s e t ∧ Evolves step t events u := by
  cases h with
  | cons here later => exact ⟨_, here, later⟩

theorem append_inv {s u : State} {first second : List (Event Op Ans)}
    (h : Evolves step s (first ++ second) u) :
    ∃ t, Evolves step s first t ∧ Evolves step t second u := by
  induction first generalizing s with
  | nil => exact ⟨s, .nil s, h⟩
  | cons e first ih =>
      obtain ⟨t, here, later⟩ := cons_inv h
      obtain ⟨v, left, right⟩ := ih later
      exact ⟨v, .cons here left, right⟩

end Evolves

/-- Every run from `s` that returns ends as `Q` says. -/
def Ensures (step : State → Event Op Ans → State → Prop) (p : Prog Op Ans Err α) (s : State)
    (Q : α → State → Prop) : Prop :=
  ∀ events a t, Exec p events (.ok a) → Evolves step s events t → Q a t

namespace Ensures

variable {s : State} {Q : α → State → Prop}

theorem ret {a : α} (h : Q a s) : Ensures step (.ret a : Prog Op Ans Err α) s Q := by
  intro events b t run follows
  obtain ⟨rfl, hout⟩ := Exec.ret_iff.mp run
  cases hout
  cases follows
  exact h

theorem fail (e : Err) : Ensures step (.fail e : Prog Op Ans Err α) s Q := by
  intro events a t run _
  obtain ⟨-, hout⟩ := Exec.fail_iff.mp run
  cases hout

theorem call {op : Op} {next : Ans op → Prog Op Ans Err α}
    (h : ∀ ans t, step s ⟨op, ans⟩ t → Ensures step (next ans) t Q) :
    Ensures step (.call op next) s Q := by
  intro events a u run follows
  obtain ⟨ans, rest, rfl, tail⟩ := Exec.call_iff.mp run
  obtain ⟨t, here, later⟩ := follows.cons_inv
  exact h ans t here rest a u tail later

theorem bind {p : Prog Op Ans Err α} {f : α → Prog Op Ans Err β} {R : β → State → Prop}
    (h : Ensures step p s fun a t => Ensures step (f a) t R) : Ensures step (p >>= f) s R := by
  intro events b u run follows
  obtain ⟨a, first, rest, left, right, rfl⟩ := run.bind_inv
  obtain ⟨t, here, later⟩ := follows.append_inv
  exact h first a t left here rest b u right later

theorem mono {p : Prog Op Ans Err α} {R : α → State → Prop} (h : Ensures step p s Q)
    (imp : ∀ a t, Q a t → R a t) : Ensures step p s R :=
  fun events a t run follows => imp a t (h events a t run follows)

/-- A loop over a list; the invariant has the elements before the one that is next. -/
theorem foldlM {f : σ → β → Prog Op Ans Err σ} {I : List β → σ → State → Prop} {xs : List β}
    {c : σ} (start : I [] c s)
    (body : ∀ done x rest c t, xs = done ++ x :: rest → I done c t →
      Ensures step (f c x) t (I (done ++ [x]))) :
    Ensures step (xs.foldlM f c) s (I xs) := by
  suffices h : ∀ rest done c t, xs = done ++ rest → I done c t →
      Ensures step (rest.foldlM f c) t (I xs) from h xs [] c s rfl start
  intro rest
  induction rest with
  | nil =>
      rintro done c t rfl now
      rw [List.append_nil]
      exact ret now
  | cons x rest ih =>
      intro done c t hxs now
      rw [List.foldlM_cons]
      refine bind ((body done x rest c t hxs now).mono fun c t next => ?_)
      exact ih (done ++ [x]) c t (by rw [hxs, List.append_assoc]; rfl) next

end Ensures

end ConcurrentTcp.Interaction
