import ConcurrentTcp.Base.Interaction

/-!
Programs that note their accesses.

A `NotedProg` makes the calls of a program and notes, between them, what it accesses.
`erase` forgets the notes, and `noted` is a program that notes nothing. `Within ok p` says
that `p` notes only what is `ok`, whatever its calls answer.
-/

namespace ConcurrentTcp.Interaction

/-- A call, or the note of an access. -/
inductive NotedOp (Op Access : Type) where
  | op (call : Op)
  | access (a : Access)

abbrev NotedOp.Ans {Op : Type} (Access : Type) (Ans : Op → Type) : NotedOp Op Access → Type
  | .op call => Ans call
  | .access _ => Unit

/-- A program over the calls `Op` that notes accesses. -/
abbrev NotedProg (Op : Type) (Ans : Op → Type) (Access Err α : Type) : Type :=
  Prog (NotedOp Op Access) (NotedOp.Ans Access Ans) Err α

section Accesses

variable {Op : Type} {Ans : Op → Type} {Access Err α β : Type}

/-- Nothing is noted. -/
def Prog.noted : Prog Op Ans Err α → NotedProg Op Ans Access Err α
  | .ret a => .ret a
  | .fail e => .fail e
  | .call op next => .call (.op op) fun ans => (next ans).noted

namespace NotedProg

/-- Forget the notes. -/
def erase : NotedProg Op Ans Access Err α → Prog Op Ans Err α
  | .ret a => .ret a
  | .fail e => .fail e
  | .call (.op op) next => .call op fun ans => erase (next ans)
  | .call (.access _) next => erase (next ())

@[simp] theorem erase_noted (p : Prog Op Ans Err α) :
    erase (p.noted : NotedProg Op Ans Access Err α) = p := by
  induction p with
  | ret a => rfl
  | fail e => rfl
  | call op next ih =>
      simp only [Prog.noted, erase]
      congr 1
      funext ans
      exact ih ans

@[simp] theorem erase_bind (p : NotedProg Op Ans Access Err α)
    (f : α → NotedProg Op Ans Access Err β) :
    erase (p >>= f) = erase p >>= fun a => erase (f a) := by
  induction p with
  | ret a => rfl
  | fail e => rfl
  | call op next ih =>
      cases op with
      | op call =>
          simp only [Prog.call_bind, erase]
          congr 1
          funext ans
          exact ih ans
      | access a => exact ih ()

/-- Whatever the calls answer, only `ok` accesses are noted. -/
def Within (ok : Access → Prop) (p : NotedProg Op Ans Access Err α) : Prop :=
  ∀ e, Calls (fun _ => True) p e → ∀ a, e.op = .access a → ok a

variable {ok : Access → Prop}

@[simp] theorem within_ret (a : α) :
    Within ok (.ret a : NotedProg Op Ans Access Err α) := nofun

@[simp] theorem within_fail (e : Err) :
    Within ok (.fail e : NotedProg Op Ans Access Err α) := nofun

@[simp] theorem within_op {op : Op} {next : Ans op → NotedProg Op Ans Access Err α} :
    Within ok (.call (.op op) next) ↔ ∀ ans, Within ok (next ans) := by
  constructor
  · intro h ans e call
    exact h e (@Calls.later _ _ _ _ _ (.op op) next ans e trivial call)
  · intro h e call a ha
    cases call with
    | here ans => cases ha
    | later ans _ call => exact h ans e call a ha

@[simp] theorem within_access {a : Access} {next : Unit → NotedProg Op Ans Access Err α} :
    Within ok (.call (.access a) next) ↔ ok a ∧ Within ok (next ()) := by
  constructor
  · intro h
    exact ⟨h _ (.here () trivial) a rfl, fun e call => h e (.later () trivial call)⟩
  · rintro ⟨hok, h⟩ e call b hb
    cases call with
    | here ans =>
        cases hb
        exact hok
    | later ans _ call => exact h e call b hb

@[simp] theorem within_noted (p : Prog Op Ans Err α) :
    Within ok (p.noted : NotedProg Op Ans Access Err α) := by
  induction p with
  | ret a => exact within_ret a
  | fail e => exact within_fail e
  | call op next ih => exact within_op.mpr ih

/-- What follows `p` notes nothing else, whatever `p` returns. -/
theorem within_bind {p : NotedProg Op Ans Access Err α} {f : α → NotedProg Op Ans Access Err β}
    (h : ∀ a, Within ok (f a)) : Within ok (p >>= f) ↔ Within ok p := by
  induction p with
  | ret a => simp [h]
  | fail e => simp
  | call op next ih =>
      cases op with
      | op call =>
          simp only [Prog.call_bind, within_op]
          exact forall_congr' ih
      | access a =>
          simp only [Prog.call_bind, within_access]
          exact and_congr_right fun _ => ih ()

end NotedProg

end Accesses

end ConcurrentTcp.Interaction
