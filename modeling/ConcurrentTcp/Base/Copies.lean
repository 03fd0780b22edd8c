import ConcurrentTcp.Base.Files
import ConcurrentTcp.Base.Transition

/-!
Two sides that copy files to each other.

A copy overwrites its target from the start. `copySystem` has the copies of both
directions; between them anything may happen to either side. `Run.returned` says what
comes back of a file that was copied to the other side, whatever became of the file
itself.
-/

namespace ConcurrentTcp.Files

open Transition

variable {Node Byte : Type} [DecidableEq Node]

/-! ### Stores -/

/-- The contents of the files of one side. -/
abbrev Contents (Node Byte : Type) := Node → Option (List Byte)

/-- One file to be stored in another. -/
structure Copy (Node : Type) where
  source : Node
  target : Node

namespace Contents

/-- Store bytes at the start of a file, which is made when it is missing. -/
def put (files : Contents Node Byte) (target : Node) (bytes : List Byte) : Contents Node Byte :=
  Function.update files target (some (overwrite ((files target).getD []) bytes))

/-- Copy files of another store, one after the other. -/
def putAll (files sources : Contents Node Byte) (copies : List (Copy Node)) :
    Contents Node Byte :=
  copies.foldl (fun files copy => files.put copy.target ((sources copy.source).getD [])) files

variable (files sources : Contents Node Byte)

@[simp] theorem put_self (target : Node) (bytes : List Byte) :
    files.put target bytes target = some (overwrite ((files target).getD []) bytes) :=
  Function.update_self ..

theorem put_of_ne {target other : Node} (bytes : List Byte) (h : other ≠ target) :
    files.put target bytes other = files other :=
  Function.update_of_ne h ..

@[simp] theorem putAll_cons (copy : Copy Node) (copies : List (Copy Node)) :
    files.putAll sources (copy :: copies) =
      (files.put copy.target ((sources copy.source).getD [])).putAll sources copies := rfl

theorem putAll_append (first second : List (Copy Node)) :
    files.putAll sources (first ++ second) = (files.putAll sources first).putAll sources second :=
  List.foldl_append

/-- A file that is no target stays. -/
theorem putAll_of_ne {copies : List (Copy Node)} {node : Node}
    (h : ∀ copy ∈ copies, copy.target ≠ node) : files.putAll sources copies node = files node := by
  induction copies generalizing files with
  | nil => rfl
  | cons copy copies ih =>
      obtain ⟨here, later⟩ := List.forall_mem_cons.mp h
      rw [putAll_cons, ih _ later, put_of_ne _ _ here.symm]

/-- A target that no other copy has. -/
theorem putAll_target {before after : List (Copy Node)} {copy : Copy Node}
    (h : ∀ other ∈ before ++ after, other.target ≠ copy.target) :
    files.putAll sources (before ++ copy :: after) copy.target =
      some (overwrite ((files copy.target).getD []) ((sources copy.source).getD [])) := by
  obtain ⟨hbefore, hafter⟩ := List.forall_mem_append.mp h
  rw [putAll_append, putAll_cons, putAll_of_ne _ _ hafter, put_self, putAll_of_ne _ _ hbefore]

end Contents

/-! ### Two sides -/

/-- The files of both sides. -/
structure Sides (Node Byte : Type) where
  here : Contents Node Byte
  there : Contents Node Byte

inductive CopyLabel (Node : Type) where
  | others
  | send (copies : List (Copy Node))
  | fetch (copy : Copy Node)
  | refuse

/-- Copies of files that exist. -/
inductive CopyStep : Sides Node Byte → CopyLabel Node → Sides Node Byte → Prop where
  | others (s t : Sides Node Byte) : CopyStep s .others t
  | send {s : Sides Node Byte} {copies : List (Copy Node)} :
      (∀ copy ∈ copies, (s.here copy.source).isSome = true) →
      CopyStep s (.send copies) { s with there := s.there.putAll s.here copies }
  | fetch {s : Sides Node Byte} {copy : Copy Node} {bytes : List Byte} :
      s.there copy.source = some bytes →
      CopyStep s (.fetch copy) { s with here := s.here.put copy.target bytes }
  | refuse (s : Sides Node Byte) : CopyStep s .refuse s

/-- The system starts anywhere. -/
def copySystem (Node Byte : Type) [DecidableEq Node] :
    System (Sides Node Byte) (CopyLabel Node) where
  init := fun _ => True
  step := CopyStep

/-- A step that stores nothing in a file of the other side. -/
def Spares (node : Node) (m : Move (Sides Node Byte) (CopyLabel Node)) : Prop :=
  match m.label with
  | .others => m.post.there node = m.pre.there node
  | .send copies => ∀ copy ∈ copies, copy.target ≠ node
  | .fetch _ | .refuse => True

section Runs

variable {s t : Sides Node Byte} {moves between : List (Move (Sides Node Byte) (CopyLabel Node))}
  {node : Node}

theorem CopyStep.spares {l : CopyLabel Node} (step : CopyStep s l t)
    (spares : Spares node ⟨s, l, t⟩) : t.there node = s.there node := by
  cases step with
  | others => exact spares
  | send _ => exact s.there.putAll_of_ne s.here spares
  | fetch _ => rfl
  | refuse => rfl

/-- A file of the other side that is spared. -/
theorem Run.there_of_spares (run : Run (copySystem Node Byte) s moves t)
    (spared : ∀ m ∈ moves, Spares node m) : t.there node = s.there node := by
  induction run with
  | nil => rfl
  | cons step _ ih =>
      obtain ⟨here, later⟩ := List.forall_mem_cons.mp spared
      exact (ih later).trans (CopyStep.spares step here)

/-- A file that was sent comes back as it was then, over what its target has now. -/
theorem Run.returned {first last : Move (Sides Node Byte) (CopyLabel Node)}
    {before after : List (Copy Node)} {copy : Copy Node} {dest : Node}
    (run : Run (copySystem Node Byte) s (first :: between ++ [last]) t)
    (sent : first.label = .send (before ++ copy :: after))
    (once : ∀ other ∈ before ++ after, other.target ≠ copy.target)
    (spared : ∀ m ∈ between, Spares copy.target m)
    (fetched : last.label = .fetch ⟨copy.target, dest⟩) :
    t.here dest = some (overwrite ((last.pre.here dest).getD [])
      (overwrite ((first.pre.there copy.target).getD [])
        ((first.pre.here copy.source).getD []))) := by
  obtain ⟨u, toFetch, fetching⟩ := run.append_inv
  cases toFetch with
  | cons send between =>
  cases fetching with
  | cons fetch done =>
  cases done
  dsimp only at sent fetched
  subst sent fetched
  cases send
  have kept := Run.there_of_spares between spared
  have stored := s.there.putAll_target s.here once
  cases fetch with
  | fetch hbytes =>
      cases hbytes.symm.trans (kept.trans stored)
      exact Contents.put_self ..

end Runs

end ConcurrentTcp.Files
