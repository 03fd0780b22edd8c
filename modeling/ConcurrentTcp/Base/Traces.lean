import ConcurrentTcp.Base.Interaction

/-!
Trace properties of programs.

`Traces Q p` says of every complete run of `p` what `Q` says of its events and its
end. A judgement looks at the events and at the fault a run ended with, if any
(`Judged`); one that holds of nothing done, and of two pieces whenever it holds of each, is
`Compositional`, and a program has it when its calls have it one by one.
-/

namespace ConcurrentTcp.Interaction

variable {Op : Type} {Ans : Op → Type} {Err α β σ : Type}

/-- Every complete run satisfies `Q`. -/
def Traces (Q : List (Event Op Ans) → Except Err α → Prop) (p : Prog Op Ans Err α) : Prop :=
  ∀ events out, Exec p events out → Q events out

namespace Traces

variable {Q : List (Event Op Ans) → Except Err α → Prop} {p : Prog Op Ans Err α}

theorem ret {a : α} (h : Q [] (.ok a)) : Traces Q (.ret a) := by
  intro events out run
  obtain ⟨rfl, rfl⟩ := Exec.ret_iff.mp run
  exact h

theorem fail {e : Err} (h : Q [] (.error e)) : Traces Q (.fail e) := by
  intro events out run
  obtain ⟨rfl, rfl⟩ := Exec.fail_iff.mp run
  exact h

theorem call {op : Op} {next : Ans op → Prog Op Ans Err α}
    (h : ∀ ans, Traces (fun events out => Q (⟨op, ans⟩ :: events) out) (next ans)) :
    Traces Q (.call op next) := by
  intro events out run
  obtain ⟨ans, rest, rfl, tail⟩ := Exec.call_iff.mp run
  exact h ans rest out tail

/-- Sequencing: what the first part leaves to the second. -/
theorem bind {f : α → Prog Op Ans Err β} {R : List (Event Op Ans) → Except Err β → Prop}
    (h : Traces (fun first out => match out with
      | .ok a => Traces (fun second end_ => R (first ++ second) end_) (f a)
      | .error e => R first (.error e)) p) :
    Traces R (p >>= f) := by
  intro events out run
  rcases run.bind_cases with ⟨a, first, second, left, right, rfl⟩ | ⟨e, left, rfl⟩
  · exact h first _ left second out right
  · exact h events _ left

end Traces

/-! ### Judgements -/

/-- The fault a run ended with. -/
def fault? : Except Err α → Option Err
  | .ok _ => none
  | .error e => some e

@[simp] theorem fault?_ok (a : α) : fault? (.ok a : Except Err α) = none := rfl

@[simp] theorem fault?_error (e : Err) : fault? (.error e : Except Err α) = some e := rfl

/-- The judgement of every run of a program. -/
def Judged (J : List (Event Op Ans) → Option Err → Prop) (p : Prog Op Ans Err α) : Prop :=
  Traces (fun events out => J events (fault? out)) p

/-- A judgement of the parts is one of the whole. -/
structure Compositional (J : List (Event Op Ans) → Option Err → Prop) : Prop where
  nil : J [] none
  append : ∀ first second fault, J first none → J second fault → J (first ++ second) fault

namespace Judged

variable {J : List (Event Op Ans) → Option Err → Prop} {p : Prog Op Ans Err α}

theorem ret (comp : Compositional J) (a : α) : Judged J (.ret a : Prog Op Ans Err α) :=
  Traces.ret comp.nil

theorem fail {e : Err} (h : J [] (some e)) : Judged J (.fail e : Prog Op Ans Err α) :=
  Traces.fail h

theorem call (comp : Compositional J) {op : Op} {next : Ans op → Prog Op Ans Err α}
    (here : ∀ ans, J [⟨op, ans⟩] none) (later : ∀ ans, Judged J (next ans)) :
    Judged J (.call op next) :=
  Traces.call fun ans events out run =>
    comp.append [⟨op, ans⟩] events _ (here ans) (later ans events out run)

theorem bind (comp : Compositional J) {f : α → Prog Op Ans Err β} (first : Judged J p)
    (second : ∀ a, Judged J (f a)) : Judged J (p >>= f) := by
  apply Traces.bind
  intro events out run
  have here := first events out run
  cases out with
  | ok a => exact fun rest end_ tail => comp.append events rest _ here (second a rest end_ tail)
  | error e => exact here

/-- A loop over a list has a judgement its body has. -/
theorem foldlM (comp : Compositional J) {f : σ → β → Prog Op Ans Err σ} {xs : List β}
    (body : ∀ s x, x ∈ xs → Judged J (f s x)) (s : σ) : Judged J (xs.foldlM f s) := by
  induction xs generalizing s with
  | nil => exact ret comp s
  | cons x xs ih =>
      rw [List.foldlM_cons]
      apply bind comp (body s x List.mem_cons_self)
      exact fun t => ih (fun u y hy => body u y (List.mem_cons_of_mem x hy)) t

end Judged

/-! ### Reported failures -/

/-- A run with a `good` result has made no `bad` call. -/
def Reports (bad : Event Op Ans → Bool) (good : α → Prop) (p : Prog Op Ans Err α) : Prop :=
  Traces (fun events out => ∀ a, out = .ok a → good a → ∀ e ∈ events, bad e = false) p

/-- No run has a `good` result. -/
def Rejects (good : α → Prop) (p : Prog Op Ans Err α) : Prop :=
  Traces (fun _ out => ∀ a, out = .ok a → ¬ good a) p

namespace Rejects

variable {good : β → Prop}

theorem ret {b : β} (h : ¬ good b) : Rejects good (.ret b : Prog Op Ans Err β) := by
  apply Traces.ret
  rintro _ ⟨⟩
  exact h

theorem fail (e : Err) : Rejects good (.fail e : Prog Op Ans Err β) := by
  apply Traces.fail
  rintro _ ⟨⟩

theorem bind {p : Prog Op Ans Err α} {f : α → Prog Op Ans Err β} (h : ∀ a, Rejects good (f a)) :
    Rejects good (p >>= f) := by
  apply Traces.bind
  intro first out _
  cases out with
  | ok a => exact h a
  | error e =>
      rintro _ ⟨⟩

end Rejects

namespace Reports

variable {bad : Event Op Ans → Bool} {g : α → Prop} {good : β → Prop} {p : Prog Op Ans Err α}

theorem ret (b : β) : Reports bad good (.ret b : Prog Op Ans Err β) := by
  apply Traces.ret
  simp

theorem fail (e : Err) : Reports bad good (.fail e : Prog Op Ans Err β) := by
  apply Traces.fail
  simp

/-- What follows a bad call has no good result. -/
theorem call {op : Op} {next : Ans op → Prog Op Ans Err β}
    (here : ∀ ans, bad ⟨op, ans⟩ = true → Rejects good (next ans))
    (later : ∀ ans, Reports bad good (next ans)) : Reports bad good (.call op next) := by
  apply Traces.call
  intro ans events out run a hout ha
  have rest := later ans events out run a hout ha
  apply List.forall_mem_cons.mpr ⟨_, rest⟩
  rw [Bool.eq_false_iff]
  intro hbad
  exact here ans hbad events out run a hout ha

/-- What follows a result that is not good has none either. -/
theorem bind {f : α → Prog Op Ans Err β} (first : Reports bad g p)
    (rejects : ∀ a, ¬ g a → Rejects good (f a)) (second : ∀ a, Reports bad good (f a)) :
    Reports bad good (p >>= f) := by
  apply Traces.bind
  intro events out run
  cases out with
  | error e => simp
  | ok a =>
      intro later end_ tail b hend hb
      have rest := second a later end_ tail b hend hb
      apply List.forall_mem_append.mpr ⟨_, rest⟩
      apply first events _ run a rfl
      apply Classical.byContradiction
      intro hbad
      exact rejects a hbad later end_ tail b hend hb

/-- A first part whose calls are never bad, or whose bad calls end it. -/
theorem seq {f : α → Prog Op Ans Err β} (first : Reports bad (fun _ => True) p)
    (second : ∀ a, Reports bad good (f a)) : Reports bad good (p >>= f) :=
  bind first (fun _ h => absurd trivial h) second

theorem foldlM {f : σ → β → Prog Op Ans Err σ} {xs : List β}
    (body : ∀ s x, Reports bad (fun _ => True) (f s x)) (s : σ) :
    Reports bad (fun _ => True) (xs.foldlM f s) := by
  induction xs generalizing s with
  | nil => exact ret s
  | cons x xs ih =>
      rw [List.foldlM_cons]
      exact seq (body s x) ih

end Reports

/-! ### Calls behind a result -/

/-- A run with a result in `R` has made a call in `mark`. -/
def Shows (mark : Event Op Ans → Prop) (R : α → Prop) (p : Prog Op Ans Err α) : Prop :=
  Traces (fun events out => ∀ a, out = .ok a → R a → ∃ e ∈ events, mark e) p

namespace Shows

variable {mark : Event Op Ans → Prop} {P : α → Prop} {R : β → Prop} {p : Prog Op Ans Err α}

theorem ret {b : β} (h : ¬ R b) : Shows mark R (.ret b : Prog Op Ans Err β) := by
  apply Traces.ret
  rintro _ ⟨⟩ hb
  exact absurd hb h

theorem fail (e : Err) : Shows mark R (.fail e : Prog Op Ans Err β) := by
  apply Traces.fail
  rintro _ ⟨⟩

/-- The call is in the mark, or what follows shows it. -/
theorem call {op : Op} {next : Ans op → Prog Op Ans Err β}
    (h : ∀ ans, mark ⟨op, ans⟩ ∨ Shows mark R (next ans)) : Shows mark R (.call op next) := by
  apply Traces.call
  intro ans events out run b hout hb
  rcases h ans with here | later
  · exact ⟨_, List.mem_cons_self, here⟩
  · obtain ⟨e, he, hmark⟩ := later events out run b hout hb
    exact ⟨e, List.mem_cons_of_mem _ he, hmark⟩

/-- The first part shows the mark for some of its results, and what follows the others
does. -/
theorem bind {f : α → Prog Op Ans Err β} (first : Shows mark P p)
    (second : ∀ a, ¬ P a → Shows mark R (f a)) : Shows mark R (p >>= f) := by
  apply Traces.bind
  intro events out run
  cases out with
  | error e => nofun
  | ok a =>
      intro later end_ tail b hend hb
      by_cases ha : P a
      · obtain ⟨e, he, hmark⟩ := first events _ run a rfl ha
        exact ⟨e, List.mem_append_left _ he, hmark⟩
      · obtain ⟨e, he, hmark⟩ := second a ha later end_ tail b hend hb
        exact ⟨e, List.mem_append_right _ he, hmark⟩

/-- Nothing is asked of the first part. -/
theorem after {f : α → Prog Op Ans Err β} (second : ∀ a, Shows mark R (f a)) :
    Shows mark R (p >>= f) :=
  bind (P := fun _ => False) (fun _ _ _ _ _ h => h.elim) fun a _ => second a

/-- Nothing is asked of what follows. -/
theorem before {f : α → Prog Op Ans Err β} (first : Shows mark (fun _ => True) p) :
    Shows mark R (p >>= f) :=
  bind first fun _ h => absurd trivial h

/-- A loop shows what its body shows at one element. -/
theorem foldlM {f : σ → α → Prog Op Ans Err σ} {xs : List α} {x : α} (hx : x ∈ xs)
    (body : ∀ s, Shows mark (fun _ => True) (f s x)) (s : σ) :
    Shows mark (fun _ => True) (xs.foldlM f s) := by
  induction xs generalizing s with
  | nil => cases hx
  | cons y ys ih =>
      rw [List.foldlM_cons]
      rcases List.mem_cons.mp hx with rfl | later
      · exact before (body s)
      · exact after fun t => ih later t

end Shows

end ConcurrentTcp.Interaction
