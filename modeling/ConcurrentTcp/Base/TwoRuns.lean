import ConcurrentTcp.Base.Interaction
import Mathlib.Data.List.Forall2

/-!
Two programs side by side.

`Simulates seen R p p'` says that each run of `p` has a run of `p'` beside it: their calls look
alike one by one, as `seen` tells, and they end alike, as `R` tells of what they return. The two
runs need not make the same calls, but what `p'` is answered is up to whoever looks for its run.
There is one rule for each construct of a program; where both make the same call, every answer to
the one is taken for the other.
-/

namespace ConcurrentTcp.Interaction

/-- The same fault, or results that are related. -/
inductive SameOutcome {Err α β : Type} (R : α → β → Prop) : Except Err α → Except Err β → Prop where
  | ok {a : α} {b : β} : R a b → SameOutcome R (.ok a) (.ok b)
  | error (e : Err) : SameOutcome R (.error e) (.error e)

namespace SameOutcome

variable {Err α α' β β' γ : Type} {R : α → β → Prop} {x : Except Err α} {y : Except Err β}

theorem map {S : α' → β' → Prop} {f : α → α'} {g : β → β'}
    (hfg : ∀ a b, R a b → S (f a) (g b)) (h : SameOutcome R x y) :
    SameOutcome S (x.map f) (y.map g) := by
  cases h with
  | ok hab => exact .ok (hfg _ _ hab)
  | error e => exact .error e

theorem mono {S : α → β → Prop} (hRS : ∀ a b, R a b → S a b) (h : SameOutcome R x y) :
    SameOutcome S x y := by
  cases h with
  | ok hab => exact .ok (hRS _ _ hab)
  | error e => exact .error e

theorem refl (x : Except Err α) : SameOutcome Eq x x := by
  cases x with
  | ok a => exact .ok rfl
  | error e => exact .error e

theorem trans {T : α → γ → Prop} {S : β → γ → Prop} {z : Except Err γ}
    (h : SameOutcome R x y) (h' : SameOutcome S y z) (hT : ∀ a b c, R a b → S b c → T a c) :
    SameOutcome T x z := by
  cases h with
  | ok hab =>
      cases h' with
      | ok hbc => exact .ok (hT _ _ _ hab hbc)
  | error e =>
      cases h' with
      | error e => exact .error e

/-- Results of which `k` tells the same. -/
theorem of_map {k : α → γ} {x' : Except Err α} (h : x'.map k = x.map k) :
    SameOutcome (fun a b => k b = k a) x x' := by
  cases x with
  | ok a =>
      cases x' with
      | ok b => exact .ok (Except.ok.inj h)
      | error e => cases h
  | error e =>
      cases x' with
      | ok b => cases h
      | error e' =>
          cases h
          exact .error e

end SameOutcome

variable {Op : Type} {Ans : Op → Type} {Err α β γ δ : Type}

/-- Each run of `p` has one of `p'` beside it. -/
def Simulates (seen : Event Op Ans → Event Op Ans → Prop) (R : α → β → Prop)
    (p : Prog Op Ans Err α) (p' : Prog Op Ans Err β) : Prop :=
  ∀ events out, Exec p events out → ∃ events' out', Exec p' events' out' ∧
    List.Forall₂ seen events events' ∧ SameOutcome R out out'

namespace Simulates

variable {seen : Event Op Ans → Event Op Ans → Prop} {R : α → β → Prop}

theorem ret {a : α} {b : β} (h : R a b) :
    Simulates seen R (.ret a : Prog Op Ans Err α) (.ret b) := by
  intro events out run
  obtain ⟨rfl, rfl⟩ := Exec.ret_iff.mp run
  exact ⟨[], _, .ret b, .nil, .ok h⟩

theorem fail (e : Err) : Simulates seen R (.fail e : Prog Op Ans Err α) (.fail e) := by
  intro events out run
  obtain ⟨rfl, rfl⟩ := Exec.fail_iff.mp run
  exact ⟨[], _, .fail e, .nil, .error e⟩

/-- Two calls that look alike for some answer to the second. -/
theorem calls {op op' : Op} {next : Ans op → Prog Op Ans Err α}
    {next' : Ans op' → Prog Op Ans Err β}
    (h : ∀ ans, ∃ ans', seen ⟨op, ans⟩ ⟨op', ans'⟩ ∧ Simulates seen R (next ans) (next' ans')) :
    Simulates seen R (.call op next) (.call op' next') := by
  intro events out run
  obtain ⟨ans, rest, rfl, tail⟩ := Exec.call_iff.mp run
  obtain ⟨ans', looks, later⟩ := h ans
  obtain ⟨rest', out', tail', alike, same⟩ := later rest out tail
  exact ⟨_, out', .call ans' tail', .cons looks alike, same⟩

theorem call [Std.Refl seen] {op : Op} {next : Ans op → Prog Op Ans Err α}
    {next' : Ans op → Prog Op Ans Err β} (h : ∀ ans, Simulates seen R (next ans) (next' ans)) :
    Simulates seen R (.call op next) (.call op next') :=
  calls fun ans => ⟨ans, Std.Refl.refl _, h ans⟩

/-- First the same program. -/
theorem bind [Std.Refl seen] {q : Prog Op Ans Err γ} {f : γ → Prog Op Ans Err α}
    {f' : γ → Prog Op Ans Err β} (h : ∀ c, Simulates seen R (f c) (f' c)) :
    Simulates seen R (q >>= f) (q >>= f') := by
  induction q with
  | ret c => exact h c
  | fail e => exact fail e
  | call op next ih => exact call ih

/-- First two programs side by side. -/
theorem seq {S : γ → δ → Prop} {p : Prog Op Ans Err γ} {p' : Prog Op Ans Err δ}
    {f : γ → Prog Op Ans Err α} {f' : δ → Prog Op Ans Err β} (first : Simulates seen S p p')
    (h : ∀ c d, S c d → Simulates seen R (f c) (f' d)) :
    Simulates seen R (p >>= f) (p' >>= f') := by
  intro events out run
  rcases run.bind_cases with ⟨c, before, behind, left, right, rfl⟩ | ⟨e, left, rfl⟩
  · obtain ⟨before', out', left', alike, same⟩ := first _ _ left
    cases same with
    | @ok _ d hcd =>
        obtain ⟨behind', out', right', alike', same⟩ := h c d hcd _ _ right
        exact ⟨_, out', left'.bind right', List.rel_append alike alike', same⟩
  · obtain ⟨events', out', left', alike, same⟩ := first _ _ left
    cases same with
    | error e => exact ⟨_, _, left'.bind_error, alike, .error e⟩

theorem ite {c : Prop} [Decidable c] {p q : Prog Op Ans Err α} {p' q' : Prog Op Ans Err β}
    (h : Simulates seen R p p') (h' : Simulates seen R q q') :
    Simulates seen R (if c then p else q) (if c then p' else q') := by
  split
  · exact h
  · exact h'

end Simulates

end ConcurrentTcp.Interaction
