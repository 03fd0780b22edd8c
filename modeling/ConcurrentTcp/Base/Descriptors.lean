import Mathlib.Logic.Function.Basic

/-!
Descriptor tables of a process.

A table says what each descriptor stands for. Opening takes the lowest number that is
free and closing frees it, whoever holds it; a number that is free is refused. `Run` is
a sequence of events, each an operation of the table, between which other parts of the
process may change it. `Run.keeps` is the frame rule: what no event closes is still
held in the end.

`ClosedOnce` is about the numbers that one holder opens and closes; `Settles` is what a
proof of it keeps from step to step, read from the end.
-/

namespace ConcurrentTcp.Descriptors

variable {Holding Event : Type}

abbrev Table (Holding : Type) : Type := Int → Option Holding

/-- The number that the next open gets. -/
structure LowestFree (T : Table Holding) (fd : Int) : Prop where
  nonneg : 0 ≤ fd
  free : T fd = none
  lowest : ∀ other, 0 ≤ other → other < fd → T other ≠ none

theorem LowestFree.ne {T : Table Holding} {fd other : Int} {h : Holding} (lowest : LowestFree T fd)
    (held : T other = some h) : other ≠ fd := by
  rintro rfl
  rw [lowest.free] at held
  cases held

/-- An operation with its answer. `use` works on an open descriptor. -/
inductive TableOp (Holding : Type) where
  | opens (h : Holding) (fd : Int)
  | close (fd : Int) (result : Int)
  | use (fd : Int) (refused : Bool)
  | idle

/-- What an operation does. The close of an open descriptor frees it even when it
reports an error. -/
inductive Step (T : Table Holding) : TableOp Holding → Table Holding → Prop where
  | opens {h : Holding} {fd : Int} : LowestFree T fd →
      Step T (.opens h fd) (Function.update T fd (some h))
  | notOpened {h : Holding} : Step T (.opens h (-1)) T
  | close {fd result : Int} : T fd ≠ none → Step T (.close fd result) (Function.update T fd none)
  | badClose {fd : Int} : T fd = none → Step T (.close fd (-1)) T
  | use {fd : Int} {refused : Bool} : T fd ≠ none → Step T (.use fd refused) T
  | badUse {fd : Int} : T fd = none → Step T (.use fd true) T
  | idle : Step T .idle T

/-- The events of a run, each with the table it found. -/
inductive Run (op : Event → TableOp Holding) (changes : Table Holding → Table Holding → Prop) :
    Table Holding → List (Table Holding × Event) → Table Holding → Prop where
  | nil (T : Table Holding) : Run op changes T [] T
  | other {T T' U : Table Holding} {calls : List (Table Holding × Event)} :
      changes T T' → Run op changes T' calls U → Run op changes T calls U
  | call {T T' U : Table Holding} {e : Event} {calls : List (Table Holding × Event)} :
      Step T (op e) T' → Run op changes T' calls U → Run op changes T ((T, e) :: calls) U

/-- Nobody else closes what is held so. -/
def Lasts (changes : Table Holding → Table Holding → Prop) (h : Holding) : Prop :=
  ∀ T T' fd, changes T T' → T fd = some h → T' fd = some h

section Frame

variable {T T' : Table Holding} {fd : Int} {h : Holding}

/-- What an operation does not close is still held. -/
theorem Step.keeps {operation : TableOp Holding} (step : Step T operation T')
    (held : T fd = some h) (unclosed : ∀ result, operation ≠ .close fd result) :
    T' fd = some h := by
  cases step with
  | opens lowest => rwa [Function.update_of_ne (lowest.ne held)]
  | notOpened => exact held
  | @close closed result open_ =>
      have hne : fd ≠ closed := by
        rintro rfl
        exact unclosed result rfl
      rwa [Function.update_of_ne hne]
  | badClose free => exact held
  | use open_ => exact held
  | badUse free => exact held
  | idle => exact held

variable {op : Event → TableOp Holding} {changes : Table Holding → Table Holding → Prop}
  {calls : List (Table Holding × Event)}

/-- What neither an event nor anybody else closes is still held. -/
theorem Run.keeps (run : Run op changes T calls T') (lasts : Lasts changes h)
    (held : T fd = some h)
    (unclosed : ∀ call ∈ calls, call.1 fd = some h → ∀ result, op call.2 ≠ .close fd result) :
    T' fd = some h := by
  induction run with
  | nil => exact held
  | other change _ ih => exact ih (lasts _ _ _ change held) unclosed
  | call step _ ih =>
      obtain ⟨here, later⟩ := List.forall_mem_cons.mp unclosed
      exact ih (step.keeps held (here held)) later

/-- The first event finds the table as others left it. -/
theorem Run.cons_inv {table : Table Holding} {e : Event}
    (run : Run op changes T ((table, e) :: calls) T') :
    Run op changes T [] table ∧ ∃ U, Step table (op e) U ∧ Run op changes U calls T' := by
  generalize hcalls : (table, e) :: calls = all at run
  induction run with
  | nil => cases hcalls
  | other change _ ih =>
      obtain ⟨found, rest⟩ := ih hcalls
      exact ⟨.other change found, rest⟩
  | call step rest _ =>
      cases hcalls
      exact ⟨.nil _, _, step, rest⟩

end Frame

/-! ### Single operations -/

section Inversion

variable {T T' : Table Holding} {fd : Int}

theorem Step.of_use {refused : Bool} (step : Step T (.use fd refused) T') : T' = T := by
  cases step with
  | use open_ => rfl
  | badUse free => rfl

/-- An open that got a number. -/
theorem Step.of_opens {h : Holding} (step : Step T (.opens h fd) T') :
    LowestFree T fd ∧ T' = Function.update T fd (some h) ∨ fd = -1 ∧ T' = T := by
  cases step with
  | opens lowest => exact .inl ⟨lowest, rfl⟩
  | notOpened => exact .inr ⟨rfl, rfl⟩

theorem Step.of_close {h : Holding} {result : Int} (step : Step T (.close fd result) T')
    (held : T fd = some h) : T' = Function.update T fd none := by
  cases step with
  | close open_ => rfl
  | badClose free =>
      rw [held] at free
      cases free

end Inversion

/-! ### One holder -/

/-- What a holder of descriptors does with a number: it gets it from an open, or closes
it. -/
inductive Use where
  | opened (fd : Int)
  | closed (fd : Int)
deriving DecidableEq, Repr

/-- How often a number is closed before the holder gets it again. -/
def closesOf (fd : Int) : List Use → Nat
  | [] => 0
  | .opened other :: later => if other = fd then 0 else closesOf fd later
  | .closed other :: later => (if other = fd then 1 else 0) + closesOf fd later

/-- Every number that an open returned is closed exactly once. -/
def ClosedOnce : List Use → Prop
  | [] => True
  | .opened fd :: later => closesOf fd later = 1 ∧ ClosedOnce later
  | .closed _ :: later => ClosedOnce later

/-- An open returns no number that the holder has open. -/
def Fresh : (Int → Prop) → List Use → Prop
  | _, [] => True
  | held, .opened fd :: later => ¬ held fd ∧ Fresh (fun n => n = fd ∨ held n) later
  | held, .closed fd :: later => Fresh (fun n => n ≠ fd ∧ held n) later

/-- From now on numbers are closed as they have to be: those that are held once, and no
other positive number until an open returns it. -/
structure Settles (isHeld : Int → Prop) (uses : List Use) : Prop where
  once : ClosedOnce uses
  held : ∀ fd, 0 < fd → isHeld fd → closesOf fd uses = 1
  free : ∀ fd, 0 < fd → ¬ isHeld fd → closesOf fd uses = 0

section Uses

variable {held held' : Int → Prop} {uses : List Use} {fd : Int}

theorem Fresh.mono (h : Fresh held uses) (sub : ∀ n, held' n → held n) : Fresh held' uses := by
  induction uses generalizing held held' with
  | nil => trivial
  | cons use later ih =>
      cases use with
      | opened fd => exact ⟨fun hfd => h.1 (sub fd hfd), ih h.2 fun n => Or.imp_right (sub n)⟩
      | closed fd => exact ih h fun n => And.imp_right (sub n)

theorem settles_nil : Settles (fun _ => False) [] := ⟨trivial, nofun, fun _ _ _ => rfl⟩

theorem Settles.congr (h : Settles held uses) (same : ∀ n, 0 < n → (held' n ↔ held n)) :
    Settles held' uses where
  once := h.once
  held := fun fd hfd hheld => h.held fd hfd ((same fd hfd).mp hheld)
  free := fun fd hfd hfree => h.free fd hfd fun hheld => hfree ((same fd hfd).mpr hheld)

/-- A number that was not held is opened. -/
theorem Settles.opened (h : Settles (fun n => n = fd ∨ held n) uses) (hfd : 0 < fd)
    (hfree : ¬ held fd) : Settles held (.opened fd :: uses) where
  once := ⟨h.held fd hfd (.inl rfl), h.once⟩
  held := fun n hn hheld => by
    have hne : fd ≠ n := by
      rintro rfl
      exact hfree hheld
    rw [closesOf, if_neg hne]
    exact h.held n hn (.inr hheld)
  free := fun n hn hother => by
    by_cases heq : fd = n
    · rw [closesOf, if_pos heq]
    · rw [closesOf, if_neg heq]
      apply h.free n hn
      rintro (rfl | hheld)
      · exact heq rfl
      · exact hother hheld

/-- A number that is held is closed. -/
theorem Settles.closed (h : Settles (fun n => n ≠ fd ∧ held n) uses) (hfd : 0 < fd)
    (hheld : held fd) : Settles held (.closed fd :: uses) where
  once := h.once
  held := fun n hn hheld => by
    by_cases heq : fd = n
    · subst heq
      rw [closesOf, if_pos rfl, h.free fd hfd fun hne => hne.1 rfl]
    · rw [closesOf, if_neg heq, Nat.zero_add]
      exact h.held n hn ⟨Ne.symm heq, hheld⟩
  free := fun n hn hother => by
    have hne : fd ≠ n := by
      rintro rfl
      exact hother hheld
    rw [closesOf, if_neg hne, Nat.zero_add]
    exact h.free n hn fun hheld => hother hheld.2

/-- The close of a number that no open returns. -/
theorem Settles.idle (h : Settles held uses) (hfd : fd ≤ 0) :
    Settles held (.closed fd :: uses) := by
  have same : ∀ n, 0 < n → closesOf n (.closed fd :: uses) = closesOf n uses := by
    intro n hn
    rw [closesOf, if_neg (by omega), Nat.zero_add]
  refine ⟨h.once, fun n hn hheld => ?_, fun n hn hother => ?_⟩
  · rw [same n hn]
    exact h.held n hn hheld
  · rw [same n hn]
    exact h.free n hn hother

end Uses

end ConcurrentTcp.Descriptors
