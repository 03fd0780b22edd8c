import ConcurrentTcp.Base.Interaction

/-!
Programs in a deterministic environment.

An environment answers a call by what was called before. `runIn` is the one run of a
program in it. Calls that are not `seen` leave no trace in the environment, so two
programs that differ in these only are answered alike.
-/

namespace ConcurrentTcp.Interaction

variable {Op : Type} {Ans : Op → Type} {Err α β γ : Type}

abbrev Environment (Op : Type) (Ans : Op → Type) : Type :=
  List (Event Op Ans) → (op : Op) → Ans op

section Run

variable (seen : Op → Bool) (env : Environment Op Ans)

/-- What the environment knows after a call. -/
def remember (past : List (Event Op Ans)) (op : Op) : List (Event Op Ans) :=
  if seen op then past ++ [⟨op, env past op⟩] else past

/-- The run of a program: its calls with the answers, and its end. -/
def runIn : List (Event Op Ans) → Prog Op Ans Err α → List (Event Op Ans) × Except Err α
  | _, .ret a => ([], .ok a)
  | _, .fail e => ([], .error e)
  | past, .call op next =>
      let later := runIn (remember seen env past op) (next (env past op))
      (⟨op, env past op⟩ :: later.1, later.2)

theorem exec_runIn (past : List (Event Op Ans)) (p : Prog Op Ans Err α) :
    Exec p (runIn seen env past p).1 (runIn seen env past p).2 := by
  induction p generalizing past with
  | ret a => exact .ret a
  | fail e => exact .fail e
  | call op next ih => exact .call _ (ih _ _)

/-- What the environment knows after a program. -/
def rememberAll (past : List (Event Op Ans)) (p : Prog Op Ans Err α) : List (Event Op Ans) :=
  past ++ (runIn seen env past p).1.filter fun e => seen e.op

theorem rememberAll_call (past : List (Event Op Ans)) (op : Op)
    (next : Ans op → Prog Op Ans Err α) :
    rememberAll seen env past (.call op next) =
      rememberAll seen env (remember seen env past op) (next (env past op)) := by
  unfold rememberAll remember
  cases hseen : seen op <;> simp [runIn, remember, hseen]

/-- The run of a sequence whose first part ends normally. -/
theorem runIn_bind {past : List (Event Op Ans)} {p : Prog Op Ans Err α} {a : α}
    (h : (runIn seen env past p).2 = .ok a) (f : α → Prog Op Ans Err β) :
    runIn seen env past (p >>= f) =
      ((runIn seen env past p).1 ++ (runIn seen env (rememberAll seen env past p) (f a)).1,
        (runIn seen env (rememberAll seen env past p) (f a)).2) := by
  induction p generalizing past with
  | ret b =>
      cases h
      simp [runIn, rememberAll]
  | fail e => cases h
  | call op next ih =>
      have later := ih (env past op) h
      rw [Prog.call_bind, rememberAll_call]
      simp only [runIn, later, List.cons_append]

/-- The run of a sequence whose first part ends with a fault. -/
theorem runIn_bind_error {past : List (Event Op Ans)} {p : Prog Op Ans Err α} {e : Err}
    (h : (runIn seen env past p).2 = .error e) (f : α → Prog Op Ans Err β) :
    runIn seen env past (p >>= f) = ((runIn seen env past p).1, .error e) := by
  induction p generalizing past with
  | ret b => cases h
  | fail e =>
      cases h
      rfl
  | call op next ih =>
      have later := ih (env past op) h
      rw [Prog.call_bind]
      simp only [runIn, later]

end Run

/-! ### Fixed answers -/

/-- What a program returns when each call always has the same answer: nothing if it faults,
or makes a call that has no answer. -/
def evaluate (answer : (op : Op) → Option (Ans op)) : Prog Op Ans Err α → Option α
  | .ret a => some a
  | .fail _ => none
  | .call op next => (answer op).bind fun ans => evaluate answer (next ans)

@[simp] theorem evaluate_ret (answer : (op : Op) → Option (Ans op)) (a : α) :
    evaluate answer (.ret a : Prog Op Ans Err α) = some a := rfl

theorem evaluate_call {answer : (op : Op) → Option (Ans op)} {op : Op} {ans : Ans op}
    (h : answer op = some ans) (next : Ans op → Prog Op Ans Err α) :
    evaluate answer (.call op next) = evaluate answer (next ans) := by
  rw [evaluate, h]
  rfl

/-- The program has such a run. -/
theorem exec_of_evaluate {answer : (op : Op) → Option (Ans op)} {p : Prog Op Ans Err α} {a : α}
    (h : evaluate answer p = some a) : ∃ events, Exec p events (.ok a) := by
  induction p with
  | ret b =>
      cases h
      exact ⟨[], .ret a⟩
  | fail e => cases h
  | call op next ih =>
      obtain ⟨ans, -, hnext⟩ := Option.bind_eq_some_iff.mp h
      obtain ⟨events, run⟩ := ih ans hnext
      exact ⟨_, .call ans run⟩

theorem evaluate_bind (answer : (op : Op) → Option (Ans op)) (p : Prog Op Ans Err α)
    (f : α → Prog Op Ans Err β) :
    evaluate answer (p >>= f) = (evaluate answer p).bind fun a => evaluate answer (f a) := by
  induction p with
  | ret a => rfl
  | fail e => rfl
  | call op next ih =>
      rw [Prog.call_bind, evaluate, evaluate, Option.bind_assoc]
      exact congrArg _ (funext ih)

/-- A run with these answers. -/
theorem Exec.eq_of_evaluate {answer : (op : Op) → Option (Ans op)} {p : Prog Op Ans Err α}
    {events : List (Event Op Ans)} {out : Except Err α} {a : α} (run : Exec p events out)
    (answered : ∀ e ∈ events, answer e.op = some e.ans) (h : evaluate answer p = some a) :
    out = .ok a := by
  induction run with
  | ret b => exact congrArg Except.ok (Option.some.inj h)
  | fail e => cases h
  | call ans _ ih =>
      obtain ⟨here, later⟩ := List.forall_mem_cons.mp answered
      rw [evaluate_call here] at h
      exact ih later h

/-- The calls of a run that can be observed. -/
def observed {Obs : Type} (obs : Event Op Ans → Option Obs) (seen : Op → Bool)
    (env : Environment Op Ans) (past : List (Event Op Ans)) (p : Prog Op Ans Err α) : List Obs :=
  (runIn seen env past p).1.filterMap obs

/-- A call that cannot be observed. -/
theorem observed_call {Obs : Type} {obs : Event Op Ans → Option Obs} {seen : Op → Bool}
    {env : Environment Op Ans} {past : List (Event Op Ans)} {op : Op}
    (hidden : obs ⟨op, env past op⟩ = none) (next : Ans op → Prog Op Ans Err α) :
    observed obs seen env past (.call op next) =
      observed obs seen env (remember seen env past op) (next (env past op)) := by
  simp only [observed, runIn, List.filterMap_cons, hidden]

/-- After the same call in the same environment, what follows decides. -/
theorem observed_call_congr {Obs : Type} {obs : Event Op Ans → Option Obs} {seen : Op → Bool}
    {env : Environment Op Ans} {past : List (Event Op Ans)} {op : Op}
    {next : Ans op → Prog Op Ans Err α} {next' : Ans op → Prog Op Ans Err β}
    (later : observed obs seen env (remember seen env past op) (next (env past op)) =
      observed obs seen env (remember seen env past op) (next' (env past op))) :
    observed obs seen env past (.call op next) = observed obs seen env past (.call op next') := by
  simp only [observed, runIn, List.filterMap_cons] at later ⊢
  rw [later]

/-- In each environment, the two programs cannot be told apart. -/
def Alike {Obs : Type} (obs : Event Op Ans → Option Obs) (seen : Op → Bool)
    (p : Prog Op Ans Err α) (q : Prog Op Ans Err β) : Prop :=
  ∀ env past, observed obs seen env past p = observed obs seen env past q

namespace Alike

variable {Obs : Type} {obs : Event Op Ans → Option Obs} {seen : Op → Bool}

theorem fail (e : Err) :
    Alike obs seen (.fail e : Prog Op Ans Err α) (.fail e : Prog Op Ans Err β) :=
  fun _ _ => rfl

/-- After the same call, what follows looks alike. -/
theorem call {op : Op} {next : Ans op → Prog Op Ans Err α} {next' : Ans op → Prog Op Ans Err β}
    (h : ∀ ans, Alike obs seen (next ans) (next' ans)) :
    Alike obs seen (.call op next) (.call op next') :=
  fun _ _ => observed_call_congr (h _ _ _)

/-- What follows the same program looks alike. -/
theorem bind {p : Prog Op Ans Err α} {f : α → Prog Op Ans Err β} {g : α → Prog Op Ans Err γ}
    (h : ∀ a, Alike obs seen (f a) (g a)) : Alike obs seen (p >>= f) (p >>= g) := by
  intro env past
  cases hend : (runIn seen env past p).2 with
  | ok a =>
      have later := h a env (rememberAll seen env past p)
      simp only [observed, runIn_bind seen env hend, List.filterMap_append] at later ⊢
      rw [later]
  | error e => simp only [observed, runIn_bind_error seen env hend]

theorem ite {c : Prop} [Decidable c] {p p' : Prog Op Ans Err α} {q q' : Prog Op Ans Err β}
    (first : Alike obs seen p q) (second : Alike obs seen p' q') :
    Alike obs seen (if c then p else p') (if c then q else q') := by
  split
  · exact first
  · exact second

end Alike

end ConcurrentTcp.Interaction
