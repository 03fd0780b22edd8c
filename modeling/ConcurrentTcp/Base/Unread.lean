import ConcurrentTcp.Base.Transition
import ConcurrentTcp.Base.TwoRuns
import Mathlib.Tactic.Choose

/-!
Parts of a state that are not read, and steps that are not seen.

`Ignores put g g' p p'` says that `p` and `p'` are the same program, which ends with `g` put into
what it returns in the one and with `g'` in the other: a run of the one is a run of the other,
with the same calls and answers. There is one rule for each construct of a program.
`FollowsUpTo k p p'` keeps of this what a simulation needs.

`Run.purge` takes steps out of a run. It asks of each step that is taken out that it keeps the
relation to the other run, and of each that stays that the other run can follow it with a step
that looks the same.
-/

namespace ConcurrentTcp.Interaction

variable {Op : Type} {Ans : Op → Type} {Err α β γ δ : Type}

/-- One program, with `g` and with `g'` in its end. -/
def Ignores (put : α → γ → β) (g g' : γ) (p p' : Prog Op Ans Err β) : Prop :=
  ∃ q : Prog Op Ans Err α, p = q >>= (fun a => .ret (put a g)) ∧
    p' = q >>= fun a => .ret (put a g')

namespace Ignores

variable {put : α → γ → β} {g g' : γ} {p p' : Prog Op Ans Err β}

theorem ret (a : α) : Ignores put g g' (.ret (put a g) : Prog Op Ans Err β) (.ret (put a g')) :=
  ⟨.ret a, rfl, rfl⟩

theorem fail (e : Err) : Ignores put g g' (.fail e : Prog Op Ans Err β) (.fail e) :=
  ⟨.fail e, rfl, rfl⟩

/-- First what has neither. -/
theorem bind {q : Prog Op Ans Err δ} {f f' : δ → Prog Op Ans Err β}
    (h : ∀ d, Ignores put g g' (f d) (f' d)) : Ignores put g g' (q >>= f) (q >>= f') := by
  choose r hr hr' using h
  refine ⟨q >>= r, ?_, ?_⟩
  · rw [Prog.bind_assoc]
    exact congrArg (q >>= ·) (funext hr)
  · rw [Prog.bind_assoc]
    exact congrArg (q >>= ·) (funext hr')

/-- First what has them. -/
theorem seq {f f' : β → Prog Op Ans Err β} (first : Ignores put g g' p p')
    (h : ∀ a, Ignores put g g' (f (put a g)) (f' (put a g'))) :
    Ignores put g g' (p >>= f) (p' >>= f') := by
  obtain ⟨q, rfl, rfl⟩ := first
  rw [Prog.bind_assoc, Prog.bind_assoc]
  exact bind h

theorem ite {c : Prop} [Decidable c] {r r' : Prog Op Ans Err β} (h : Ignores put g g' p p')
    (h' : Ignores put g g' r r') :
    Ignores put g g' (if c then p else r) (if c then p' else r') := by
  split
  · exact h
  · exact h'

/-- What ignores the whole ignores a part of it. -/
theorem part {α' : Type} {put' : α' → δ → β} {k : δ → γ} {d d' : δ}
    (h : Ignores put (k d) (k d') p p') (keep : α → α')
    (same : ∀ a e, put a (k e) = put' (keep a) e) : Ignores put' d d' p p' := by
  obtain ⟨q, rfl, rfl⟩ := h
  refine ⟨q >>= fun a => .ret (keep a), ?_, ?_⟩
  · rw [Prog.bind_assoc]
    exact congrArg (q >>= ·) (funext fun a => congrArg Prog.ret (same a d))
  · rw [Prog.bind_assoc]
    exact congrArg (q >>= ·) (funext fun a => congrArg Prog.ret (same a d'))

/-- A run of the one is a run of the other. -/
theorem exec (h : Ignores put g g' p p') {events : List (Event Op Ans)} {out : Except Err β}
    (run : Exec p events out) : ∃ end_ : Except Err α, out = end_.map (put · g) ∧
      Exec p' events (end_.map (put · g')) := by
  obtain ⟨q, rfl, rfl⟩ := h
  rcases run.bind_cases with ⟨a, first, second, left, right, rfl⟩ | ⟨e, left, rfl⟩
  · obtain ⟨rfl, rfl⟩ := Exec.ret_iff.mp right
    exact ⟨.ok a, rfl, left.bind (.ret _)⟩
  · exact ⟨.error e, rfl, left.bind_error⟩

end Ignores

/-- Each run of `p` is one of `p'`, up to what `k` does not tell of its end. -/
def FollowsUpTo (k : β → γ) (p p' : Prog Op Ans Err β) : Prop :=
  ∀ events out, Exec p events out → ∃ out', Exec p' events out' ∧ out'.map k = out.map k

theorem FollowsUpTo.refl (k : β → γ) (p : Prog Op Ans Err β) : FollowsUpTo k p p :=
  fun _ out run => ⟨out, run, rfl⟩

theorem Ignores.followsUpTo {put : α → γ → β} {g g' : γ} {p p' : Prog Op Ans Err β} {k : β → δ}
    (h : Ignores put g g' p p') (same : ∀ a, k (put a g') = k (put a g)) : FollowsUpTo k p p' := by
  intro events out run
  obtain ⟨end_, rfl, run'⟩ := h.exec run
  refine ⟨_, run', ?_⟩
  cases end_ with
  | ok a => exact congrArg Except.ok (same a)
  | error e => rfl

/-- A run of `p` is one of `p'`, and so has one beside it wherever that has. -/
theorem FollowsUpTo.simulates {seen : Event Op Ans → Event Op Ans → Prop} {R S : β → δ → Prop}
    {k : β → γ} {p p' : Prog Op Ans Err β} {p'' : Prog Op Ans Err δ} (h : FollowsUpTo k p p')
    (later : Simulates seen R p' p'') (hS : ∀ a b d, k b = k a → R b d → S a d) :
    Simulates seen S p p'' := by
  intro events out run
  obtain ⟨out', run', same⟩ := h events out run
  obtain ⟨events', out'', run'', alike, ends⟩ := later events out' run'
  exact ⟨events', out'', run'', alike, (SameOutcome.of_map same).trans ends hS⟩

end ConcurrentTcp.Interaction

namespace ConcurrentTcp.Transition

variable {State Label : Type} {S : System State Label}

/-- The run without the steps that are not kept. -/
theorem Run.purge {keep : Label → Prop} [DecidablePred keep] {looks : Label → Label → Prop}
    {R : State → State → Prop} {ok : State → Label → Prop}
    (silent : ∀ s l t s', R s s' → ok s l → S.step s l t → ¬ keep l → R t s')
    (follows : ∀ s l t s', R s s' → ok s l → S.step s l t → keep l →
      ∃ l' t', S.step s' l' t' ∧ R t t' ∧ looks l l')
    {s t s' : State} {moves : List (Move State Label)} (run : Run S s moves t) (start : R s s')
    (meets : ∀ m ∈ moves, ok m.pre m.label) :
    ∃ moves' t', Run S s' moves' t' ∧ R t t' ∧
      List.Forall₂ (fun m m' => looks m.label m'.label)
        (moves.filter fun m => keep m.label) moves' := by
  induction run generalizing s' with
  | nil => exact ⟨[], s', .nil s', start, .nil⟩
  | @cons s t u l moves step _ ih =>
      obtain ⟨now, later⟩ := List.forall_mem_cons.mp meets
      by_cases hkeep : keep l
      · obtain ⟨l', t', first, related, seen⟩ := follows _ _ _ _ start now step hkeep
        obtain ⟨rest, u', run, last, seenLater⟩ := ih related later
        refine ⟨⟨s', l', t'⟩ :: rest, u', .cons first run, last, ?_⟩
        rw [List.filter_cons_of_pos (by simpa using hkeep)]
        exact .cons seen seenLater
      · obtain ⟨rest, u', run, last, seenLater⟩ := ih (silent _ _ _ _ start now step hkeep) later
        refine ⟨rest, u', run, last, ?_⟩
        rw [List.filter_cons_of_neg (by simpa using hkeep)]
        exact seenLater

end ConcurrentTcp.Transition
