/-!
Programs that call an environment, and rely-guarantee contracts for them.

A `Prog` is a finite-depth tree of calls: it returns, faults, or makes one call
and continues with whatever the environment answers. `Exec` is the relation
between a program, the events of one run, and the way that run ended. Answers
are unconstrained in `Exec`; what is known about the environment enters as the
`rely` part of a contract.

`Contract rely guar post` is the weakest precondition of "as long as every
answer satisfies `rely`, every event satisfies `guar`, and the run ends as
`post` says". `Contract.sound` is its meaning over `Exec`; the remaining lemmas
are the rules by which larger programs are verified from smaller ones.
-/

namespace ConcurrentTcp.Interaction

/-- One call together with the answer the environment gave. -/
structure Event (Op : Type) (Ans : Op → Type) where
  op : Op
  ans : Ans op

/-- A program over the calls `Op`, with answers `Ans op` and faults `Err`. -/
inductive Prog (Op : Type) (Ans : Op → Type) (Err α : Type) : Type where
  | ret (a : α)
  | fail (e : Err)
  | call (op : Op) (next : Ans op → Prog Op Ans Err α)

namespace Prog

variable {Op : Type} {Ans : Op → Type} {Err α β γ : Type}

/-- Sequencing: a fault of the first program ends the whole. -/
def bind : Prog Op Ans Err α → (α → Prog Op Ans Err β) → Prog Op Ans Err β
  | .ret a, f => f a
  | .fail e, _ => .fail e
  | .call op next, f => .call op fun ans => (next ans).bind f

instance : Monad (Prog Op Ans Err) where
  pure := .ret
  bind := bind

/-- Make one call and return its answer. -/
def ask (op : Op) : Prog Op Ans Err (Ans op) := .call op .ret

@[simp] theorem pure_eq (a : α) : (pure a : Prog Op Ans Err α) = .ret a := rfl

@[simp] theorem ret_bind (a : α) (f : α → Prog Op Ans Err β) :
    (Prog.ret a >>= f) = f a := rfl

@[simp] theorem fail_bind (e : Err) (f : α → Prog Op Ans Err β) :
    ((Prog.fail e : Prog Op Ans Err α) >>= f) = .fail e := rfl

@[simp] theorem call_bind (op : Op) (next : Ans op → Prog Op Ans Err α)
    (f : α → Prog Op Ans Err β) :
    (Prog.call op next >>= f) = .call op fun ans => next ans >>= f := rfl

@[simp] theorem ask_bind (op : Op) (f : Ans op → Prog Op Ans Err β) :
    (ask op >>= f) = .call op f := rfl

theorem bind_assoc (p : Prog Op Ans Err α) (f : α → Prog Op Ans Err β)
    (g : β → Prog Op Ans Err γ) :
    ((p >>= f) >>= g) = p >>= fun a => f a >>= g := by
  induction p with
  | ret a => rfl
  | fail e => rfl
  | call op next ih =>
      simp only [call_bind]
      congr 1
      funext ans
      exact ih ans

end Prog

/-! ### Runs -/

section Exec

variable {Op : Type} {Ans : Op → Type} {Err α β : Type}

/-- `Exec p events end`: `p` can make exactly the calls of `events`, receiving
the answers recorded there, and ends as `end`. -/
inductive Exec : Prog Op Ans Err α → List (Event Op Ans) → Except Err α → Prop where
  | ret (a : α) : Exec (.ret a) [] (.ok a)
  | fail (e : Err) : Exec (.fail e) [] (.error e)
  | call {op : Op} {next : Ans op → Prog Op Ans Err α} (ans : Ans op)
      {events : List (Event Op Ans)} {out : Except Err α} :
      Exec (next ans) events out → Exec (.call op next) (⟨op, ans⟩ :: events) out

namespace Exec

theorem ret_iff {a : α} {events : List (Event Op Ans)} {out : Except Err α} :
    Exec (.ret a) events out ↔ events = [] ∧ out = .ok a := by
  constructor
  · intro run
    cases run
    exact ⟨rfl, rfl⟩
  · rintro ⟨rfl, rfl⟩
    exact .ret a

theorem fail_iff {e : Err} {events : List (Event Op Ans)} {out : Except Err α} :
    Exec (.fail e) events out ↔ events = [] ∧ out = .error e := by
  constructor
  · intro run
    cases run
    exact ⟨rfl, rfl⟩
  · rintro ⟨rfl, rfl⟩
    exact .fail e

theorem call_iff {op : Op} {next : Ans op → Prog Op Ans Err α}
    {events : List (Event Op Ans)} {out : Except Err α} :
    Exec (.call op next) events out ↔
      ∃ ans rest, events = ⟨op, ans⟩ :: rest ∧ Exec (next ans) rest out := by
  constructor
  · intro run
    cases run with
    | call ans rest => exact ⟨ans, _, rfl, rest⟩
  · rintro ⟨ans, rest, rfl, run⟩
    exact .call ans run

/-- A normal run of `p` continues with any run of what follows. -/
theorem bind {p : Prog Op Ans Err α} {f : α → Prog Op Ans Err β} {a : α}
    {first second : List (Event Op Ans)} {out : Except Err β}
    (run : Exec p first (.ok a)) (rest : Exec (f a) second out) :
    Exec (p >>= f) (first ++ second) out := by
  generalize hend : Except.ok a = last at run
  induction run with
  | ret b =>
      cases hend
      simpa using rest
  | fail e => cases hend
  | call ans _ ih => exact .call ans (ih hend)

/-- A fault of the first part ends the whole. -/
theorem bind_error {p : Prog Op Ans Err α} {f : α → Prog Op Ans Err β} {e : Err}
    {events : List (Event Op Ans)} (run : Exec p events (.error e)) :
    Exec (p >>= f) events (.error e) := by
  generalize hend : Except.error e = last at run
  induction run with
  | ret b => cases hend
  | fail e' =>
      cases hend
      exact .fail e
  | call ans _ ih => exact .call ans (ih hend)

/-- A run of a sequence ends in its first part with a fault, or goes on. -/
theorem bind_cases {p : Prog Op Ans Err α} {f : α → Prog Op Ans Err β}
    {events : List (Event Op Ans)} {out : Except Err β} (run : Exec (p >>= f) events out) :
    (∃ a first second, Exec p first (.ok a) ∧ Exec (f a) second out ∧ events = first ++ second) ∨
      ∃ e, Exec p events (.error e) ∧ out = .error e := by
  induction p generalizing events with
  | ret a => exact .inl ⟨a, [], events, .ret a, run, rfl⟩
  | fail e =>
      obtain ⟨rfl, rfl⟩ := fail_iff.mp run
      exact .inr ⟨e, .fail e, rfl⟩
  | call op next ih =>
      rw [Prog.call_bind] at run
      obtain ⟨ans, rest, rfl, tail⟩ := call_iff.mp run
      rcases ih ans tail with ⟨a, first, second, left, right, rfl⟩ | ⟨e, left, rfl⟩
      · exact .inl ⟨a, _, second, .call ans left, right, rfl⟩
      · exact .inr ⟨e, .call ans left, rfl⟩

/-- A run of a sequence is a run of the first part, then of what follows it. -/
theorem bind_inv {p : Prog Op Ans Err α} {f : α → Prog Op Ans Err β}
    {events : List (Event Op Ans)} {b : β} (run : Exec (p >>= f) events (.ok b)) :
    ∃ a first second, Exec p first (.ok a) ∧ Exec (f a) second (.ok b) ∧
      events = first ++ second := by
  rcases run.bind_cases with returned | ⟨e, -, hfault⟩
  · exact returned
  · cases hfault

end Exec

end Exec

/-! ### Calls a program can make -/

section Calls

variable {Op : Type} {Ans : Op → Type} {Err α β : Type}

/-- While the answers satisfy `rely`, the program can come to make this call and
receive this answer, whatever it does afterwards. -/
inductive Calls (rely : Event Op Ans → Prop) : Prog Op Ans Err α → Event Op Ans → Prop where
  | here {op : Op} {next : Ans op → Prog Op Ans Err α} (ans : Ans op) :
      rely ⟨op, ans⟩ → Calls rely (.call op next) ⟨op, ans⟩
  | later {op : Op} {next : Ans op → Prog Op Ans Err α} (ans : Ans op) {e : Event Op Ans} :
      rely ⟨op, ans⟩ → Calls rely (next ans) e → Calls rely (.call op next) e

namespace Calls

variable {rely : Event Op Ans → Prop} {e : Event Op Ans}

/-- A call of the first part is one of the whole. -/
theorem bind_left {p : Prog Op Ans Err α} {f : α → Prog Op Ans Err β} (call : Calls rely p e) :
    Calls rely (p >>= f) e := by
  induction call with
  | here ans answer => exact .here ans answer
  | later ans answer _ ih => exact .later ans answer ih

/-- A call of the second part, after a run of the first. -/
theorem bind_right {p : Prog Op Ans Err α} {f : α → Prog Op Ans Err β} {a : α}
    {events : List (Event Op Ans)} (run : Exec p events (.ok a)) (answers : ∀ e ∈ events, rely e)
    (call : Calls rely (f a) e) : Calls rely (p >>= f) e := by
  generalize hend : Except.ok a = last at run
  induction run with
  | ret b =>
      cases hend
      exact call
  | fail err => cases hend
  | call ans _ ih =>
      obtain ⟨answer, answers⟩ := List.forall_mem_cons.mp answers
      exact .later ans answer (ih answers hend)

/-- A call of the body at one element is one of the loop, when every body can
come to its end. -/
theorem foldlM {σ : Type} {f : σ → β → Prog Op Ans Err σ} {xs : List β} {x : β} {s : σ}
    (hx : x ∈ xs)
    (ends : ∀ s y, ∃ events t, Exec (f s y) events (.ok t) ∧ ∀ e ∈ events, rely e)
    (call : ∀ s, Calls rely (f s x) e) : Calls rely (xs.foldlM f s) e := by
  induction xs generalizing s with
  | nil => cases hx
  | cons y ys ih =>
      rw [List.foldlM_cons]
      rcases List.mem_cons.mp hx with rfl | later
      · exact (call s).bind_left
      · obtain ⟨events, t, run, answers⟩ := ends s y
        exact bind_right run answers (ih later)

end Calls

end Calls

/-! ### Contracts -/

section Contract

variable {Op : Type} {Ans : Op → Type} {Err α β σ : Type}

/-- Postcondition on normal ends only; a fault is left unconstrained. -/
def onReturn (Q : α → Prop) : Except Err α → Prop
  | .ok a => Q a
  | .error _ => True

@[simp] theorem onReturn_ok (Q : α → Prop) (a : α) :
    onReturn Q (.ok a : Except Err α) = Q a := rfl

/-- While the environment keeps `rely`, every event satisfies `guar` and the
program ends as `post` says. -/
def Contract (rely guar : Event Op Ans → Prop) (post : Except Err α → Prop) :
    Prog Op Ans Err α → Prop
  | .ret a => post (.ok a)
  | .fail e => post (.error e)
  | .call op next => ∀ ans, rely ⟨op, ans⟩ →
      guar ⟨op, ans⟩ ∧ Contract rely guar post (next ans)

namespace Contract

variable {rely guar : Event Op Ans → Prop} {post : Except Err α → Prop}

/-- What a contract says about the runs of a program. -/
theorem sound {p : Prog Op Ans Err α} {events : List (Event Op Ans)} {out : Except Err α}
    (contract : Contract rely guar post p) (run : Exec p events out)
    (answers : ∀ e ∈ events, rely e) : (∀ e ∈ events, guar e) ∧ post out := by
  induction run with
  | ret a => exact ⟨by simp, contract⟩
  | fail e => exact ⟨by simp, contract⟩
  | call ans _ ih =>
      obtain ⟨event, rest⟩ := contract ans (answers _ List.mem_cons_self)
      obtain ⟨events, ending⟩ := ih rest fun e he => answers e (List.mem_cons_of_mem _ he)
      exact ⟨List.forall_mem_cons.mpr ⟨event, events⟩, ending⟩

/-- What a contract says about the calls a program can make. -/
theorem of_calls {p : Prog Op Ans Err α} {e : Event Op Ans} (contract : Contract rely guar post p)
    (call : Calls rely p e) : guar e := by
  induction call with
  | here ans answer => exact (contract ans answer).1
  | later ans answer _ ih => exact ih (contract ans answer).2

/-- Nothing is asked. -/
theorem any (p : Prog Op Ans Err α) :
    Contract rely (fun _ => True) (onReturn fun _ => True) p := by
  induction p with
  | ret a => trivial
  | fail e => trivial
  | call op next ih => exact fun ans _ => ⟨trivial, ih ans⟩

/-- The postcondition of a normal run when nothing is asked of the answers. -/
theorem returns {Q : α → Prop} {p : Prog Op Ans Err α} {events : List (Event Op Ans)} {a : α}
    (contract : Contract (fun _ => True) guar (onReturn Q) p)
    (run : Exec p events (.ok a)) : Q a :=
  (contract.sound run fun _ _ => trivial).2

theorem bind {p : Prog Op Ans Err α} {f : α → Prog Op Ans Err β} {post : Except Err β → Prop}
    (first : Contract rely guar
      (fun out => match out with
        | .ok a => Contract rely guar post (f a)
        | .error e => post (.error e)) p) :
    Contract rely guar post (p >>= f) := by
  induction p with
  | ret a => exact first
  | fail e => exact first
  | call op next ih => exact fun ans answer => ⟨(first ans answer).1, ih ans (first ans answer).2⟩

/-- Weaker rely, stronger guarantee and stronger postcondition imply the rest. -/
theorem mono {rely' guar' : Event Op Ans → Prop} {post' : Except Err α → Prop}
    {p : Prog Op Ans Err α} (contract : Contract rely guar post p)
    (hrely : ∀ e, rely' e → rely e) (hguar : ∀ e, rely' e → guar e → guar' e)
    (hpost : ∀ out, post out → post' out) : Contract rely' guar' post' p := by
  induction p with
  | ret a => exact hpost _ contract
  | fail e => exact hpost _ contract
  | call op next ih =>
      intro ans answer
      obtain ⟨event, rest⟩ := contract ans (hrely _ answer)
      exact ⟨hguar _ answer event, ih ans rest⟩

/-- Sequencing of contracts whose first part says only how it returns. -/
theorem seq {p : Prog Op Ans Err α} {f : α → Prog Op Ans Err β} {Q : α → Prop}
    {R : β → Prop} (first : Contract rely guar (onReturn Q) p)
    (second : ∀ a, Q a → Contract rely guar (onReturn R) (f a)) :
    Contract rely guar (onReturn R) (p >>= f) := by
  refine bind (first.mono (fun _ h => h) (fun _ _ h => h) fun out hout => ?_)
  cases out with
  | ok a => exact second a hout
  | error e => trivial

/-- What follows `p` ends well whatever `p` returns. -/
theorem after {p : Prog Op Ans Err α} {f : α → Prog Op Ans Err β} {R : β → Prop}
    (second : ∀ a, Contract rely (fun _ => True) (onReturn R) (f a)) :
    Contract rely (fun _ => True) (onReturn R) (p >>= f) :=
  seq (any p) fun a _ => second a

/-- A loop over a list keeps what its body keeps. -/
theorem foldlM {f : σ → β → Prog Op Ans Err σ} {I : σ → Prop} {xs : List β} {s : σ}
    (start : I s) (body : ∀ s x, x ∈ xs → I s → Contract rely guar (onReturn I) (f s x)) :
    Contract rely guar (onReturn I) (xs.foldlM f s) := by
  induction xs generalizing s with
  | nil => exact start
  | cons x xs ih =>
      rw [List.foldlM_cons]
      exact seq (body s x List.mem_cons_self start) fun t ht =>
        ih ht fun t y hy => body t y (List.mem_cons_of_mem _ hy)

end Contract

end Contract

end ConcurrentTcp.Interaction
