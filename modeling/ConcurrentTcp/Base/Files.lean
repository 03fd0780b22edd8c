import Mathlib.Algebra.Group.Int.Defs
import Mathlib.Algebra.Group.Nat.Defs
import Mathlib.Data.List.Basic
import Mathlib.Logic.Function.Basic

/-!
Files behind descriptors.

A descriptor of an open file has a position, which reading and writing move. `Step`
is what each operation does when it succeeds in full. `overwrite` is the content of a
file that was written to from its start: `Step.write` at the end of what was written
so far keeps to it, and `overwrite_eq_iff` tells when nothing of the old content is
left.
-/

namespace ConcurrentTcp.Files

/-! ### Contents -/

section Contents

variable {Byte : Type}

/-- Store bytes at a position; a gap before it is filled. -/
def splice [Inhabited Byte] (old : List Byte) (position : Nat) (bytes : List Byte) : List Byte :=
  old.take position ++ List.replicate (position - old.length) default ++ bytes ++
    old.drop (position + bytes.length)

/-- Store bytes at the start. -/
def overwrite (old bytes : List Byte) : List Byte := bytes ++ old.drop bytes.length

@[simp] theorem overwrite_nil (old : List Byte) : overwrite old [] = old := rfl

@[simp] theorem nil_overwrite (bytes : List Byte) : overwrite [] bytes = bytes := by
  simp [overwrite]

/-- Bytes written one after the other are written at once. -/
theorem splice_overwrite [Inhabited Byte] (old before bytes : List Byte) :
    splice (overwrite old before) before.length bytes = overwrite old (before ++ bytes) := by
  simp [splice, overwrite, List.drop_append, List.drop_drop]

/-- Nothing of a content survives that is not longer than what replaces it. -/
theorem overwrite_eq_iff {old bytes : List Byte} :
    overwrite old bytes = bytes ↔ old.length ≤ bytes.length := by
  simp [overwrite]

end Contents

/-! ### File systems -/

/-- What a descriptor stands for. -/
inductive Entry (Node : Type) where
  | file (node : Node) (position : Nat)
  | other

structure FileSystem (Node Byte : Type) where
  content : Node → Option (List Byte)
  descriptor : Int → Option (Entry Node)

/-- An operation with its answer. -/
inductive FileOp (Node Byte : Type) where
  | opens (node : Node) (creat : Bool) (fd : Int)
  | size (fd : Int) (size : Option Nat)
  | seek (fd : Int) (offset position : Int)
  | read (fd : Int) (count : Nat) (bytes : Option (List Byte))
  | write (fd : Int) (bytes : List Byte) (count : Int)
  | close (fd : Int) (result : Int)

variable {Node Byte : Type}

namespace FileSystem

def setDescriptor (fs : FileSystem Node Byte) (fd : Int) (entry : Option (Entry Node)) :
    FileSystem Node Byte :=
  { fs with descriptor := Function.update fs.descriptor fd entry }

section Descriptors

variable (fs : FileSystem Node Byte) (entry : Option (Entry Node))

@[simp] theorem content_setDescriptor (fd : Int) :
    (fs.setDescriptor fd entry).content = fs.content := rfl

@[simp] theorem descriptor_setDescriptor_self (fd : Int) :
    (fs.setDescriptor fd entry).descriptor fd = entry :=
  Function.update_self ..

theorem descriptor_setDescriptor_of_ne {fd other : Int} (h : other ≠ fd) :
    (fs.setDescriptor fd entry).descriptor other = fs.descriptor other :=
  Function.update_of_ne h ..

end Descriptors

variable [DecidableEq Node]

def setContent (fs : FileSystem Node Byte) (node : Node) (content : List Byte) :
    FileSystem Node Byte :=
  { fs with content := Function.update fs.content node (some content) }

section Contents

variable (fs : FileSystem Node Byte) (content : List Byte)

@[simp] theorem content_setContent_self (node : Node) :
    (fs.setContent node content).content node = some content :=
  Function.update_self ..

theorem content_setContent_of_ne {node other : Node} (h : other ≠ node) :
    (fs.setContent node content).content other = fs.content other :=
  Function.update_of_ne h ..

end Contents

end FileSystem

/-- Between two file systems, only one file and one descriptor changed. -/
structure OnlyTouches (node : Node) (fd : Int) (fs fs' : FileSystem Node Byte) : Prop where
  content : ∀ other, other ≠ node → fs'.content other = fs.content other
  descriptor : ∀ other, other ≠ fd → fs'.descriptor other = fs.descriptor other

namespace OnlyTouches

variable {node : Node} {fd : Int} {fs fs' fs'' : FileSystem Node Byte}

theorem trans (first : OnlyTouches node fd fs fs') (second : OnlyTouches node fd fs' fs'') :
    OnlyTouches node fd fs fs'' where
  content := fun other h => (second.content other h).trans (first.content other h)
  descriptor := fun other h => (second.descriptor other h).trans (first.descriptor other h)

theorem setContent_setDescriptor [DecidableEq Node] (fs : FileSystem Node Byte) (node : Node)
    (fd : Int) (content : List Byte) (entry : Option (Entry Node)) :
    OnlyTouches node fd fs ((fs.setContent node content).setDescriptor fd entry) where
  content := fun _ h => fs.content_setContent_of_ne content h
  descriptor := fun _ h => (fs.setContent node content).descriptor_setDescriptor_of_ne entry h

end OnlyTouches

variable [DecidableEq Node]

open FileSystem

/-- A successful operation. `open` gives a free descriptor and creates the file if it
may. The size of a file is an `off_t`. What `write` stores in anything but a file is
not kept. -/
inductive Step [Inhabited Byte] :
    FileSystem Node Byte → FileOp Node Byte → FileSystem Node Byte → Prop where
  | opens {fs : FileSystem Node Byte} {node : Node} {creat : Bool} {fd : Int} :
      0 ≤ fd → fs.descriptor fd = none → (creat = true ∨ (fs.content node).isSome = true) →
      Step fs (.opens node creat fd)
        ((fs.setContent node ((fs.content node).getD [])).setDescriptor fd (some (.file node 0)))
  | size {fs : FileSystem Node Byte} {fd : Int} {node : Node} {position : Nat}
      {content : List Byte} : fs.descriptor fd = some (.file node position) →
      fs.content node = some content → content.length < 2 ^ 63 →
      Step fs (.size fd (some content.length)) fs
  | seek {fs : FileSystem Node Byte} {fd : Int} {node : Node} {old position : Nat} :
      fs.descriptor fd = some (.file node old) →
      Step fs (.seek fd position position) (fs.setDescriptor fd (some (.file node position)))
  | read {fs : FileSystem Node Byte} {fd : Int} {node : Node} {position count : Nat}
      {content bytes : List Byte} : fs.descriptor fd = some (.file node position) →
      fs.content node = some content → bytes = (content.drop position).take count →
      Step fs (.read fd count (some bytes))
        (fs.setDescriptor fd (some (.file node (position + bytes.length))))
  | write {fs : FileSystem Node Byte} {fd : Int} {node : Node} {position : Nat}
      {old bytes : List Byte} : fs.descriptor fd = some (.file node position) →
      fs.content node = some old →
      Step fs (.write fd bytes bytes.length)
        ((fs.setContent node (splice old position bytes)).setDescriptor fd
          (some (.file node (position + bytes.length))))
  | writeOther {fs : FileSystem Node Byte} {fd : Int} {bytes : List Byte} :
      fs.descriptor fd = some .other → Step fs (.write fd bytes bytes.length) fs
  | close {fs : FileSystem Node Byte} {fd : Int} {entry : Entry Node} :
      fs.descriptor fd = some entry → Step fs (.close fd 0) (fs.setDescriptor fd none)

section Inversion

variable [Inhabited Byte] {fs fs' : FileSystem Node Byte} {node : Node} {fd : Int}

/-- Opening a file that exists keeps its content. -/
theorem Step.opens_existing {content : List Byte} (creat : Bool) (hfd : 0 ≤ fd)
    (hfree : fs.descriptor fd = none) (hcontent : fs.content node = some content) :
    Step fs (.opens node creat fd)
      ((fs.setContent node content).setDescriptor fd (some (.file node 0))) := by
  have step : Step fs (.opens node creat fd) _ := .opens hfd hfree (.inr (by rw [hcontent]; rfl))
  rwa [hcontent, Option.getD_some] at step

/-- Writing to a file. -/
theorem Step.write_file {position : Nat} {old bytes : List Byte} {count : Int}
    (hfd : fs.descriptor fd = some (.file node position)) (hold : fs.content node = some old)
    (step : Step fs (.write fd bytes count) fs') :
    fs' = (fs.setContent node (splice old position bytes)).setDescriptor fd
      (some (.file node (position + bytes.length))) := by
  cases step with
  | write hfd' hold' =>
      rw [hfd] at hfd'
      cases hfd'
      rw [hold] at hold'
      cases hold'
      rfl
  | writeOther hfd' =>
      rw [hfd] at hfd'
      cases hfd'

/-- Writing does not make a file. -/
theorem Step.write_missing {bytes : List Byte} {count : Int} (hmissing : fs.content node = none)
    (step : Step fs (.write fd bytes count) fs') : fs'.content node = none := by
  cases step with
  | write hfd hold =>
      rename_i other position old
      have hne : node ≠ other := by
        rintro rfl
        rw [hmissing] at hold
        cases hold
      rw [content_setDescriptor, content_setContent_of_ne _ _ hne, hmissing]
  | writeOther hfd => exact hmissing

theorem Step.seek_file {position : Nat} {offset answer : Int}
    (hfd : fs.descriptor fd = some (.file node position))
    (step : Step fs (.seek fd offset answer) fs') :
    answer = offset ∧ ∃ n : Nat, offset = n ∧
      fs' = fs.setDescriptor fd (some (.file node n)) := by
  cases step with
  | seek hfd' =>
      rw [hfd] at hfd'
      cases hfd'
      exact ⟨rfl, _, rfl, rfl⟩

theorem Step.read_file {position count : Nat} {content : List Byte} {bytes : Option (List Byte)}
    (hfd : fs.descriptor fd = some (.file node position))
    (hcontent : fs.content node = some content)
    (step : Step fs (.read fd count bytes) fs') :
    bytes = some ((content.drop position).take count) ∧
      ∃ n, fs' = fs.setDescriptor fd (some (.file node n)) := by
  cases step with
  | read hfd' hcontent' hbytes =>
      rw [hfd] at hfd'
      cases hfd'
      rw [hcontent] at hcontent'
      cases hcontent'
      exact ⟨congrArg some hbytes, _, rfl⟩

end Inversion

/-- What an operation can do: it may also fail, and a read may give less than there is. -/
inductive Outcome [Inhabited Byte] :
    FileSystem Node Byte → FileOp Node Byte → FileSystem Node Byte → Prop where
  | done {fs fs' : FileSystem Node Byte} {op : FileOp Node Byte} : Step fs op fs' →
      Outcome fs op fs'
  | seekFails (fs : FileSystem Node Byte) (fd offset : Int) : Outcome fs (.seek fd offset (-1)) fs
  | readFails (fs : FileSystem Node Byte) (fd : Int) (count : Nat) :
      Outcome fs (.read fd count none) fs
  | readsLess {fs : FileSystem Node Byte} {fd : Int} {node : Node} {position count : Nat}
      {content bytes : List Byte} : fs.descriptor fd = some (.file node position) →
      fs.content node = some content → bytes ≠ [] →
      bytes <+: (content.drop position).take count →
      Outcome fs (.read fd count (some bytes))
        (fs.setDescriptor fd (some (.file node (position + bytes.length))))
  | closeFails (fs : FileSystem Node Byte) (fd : Int) : Outcome fs (.close fd (-1)) fs

section Outcomes

variable [Inhabited Byte] {fs fs' : FileSystem Node Byte} {node : Node} {fd : Int} {position : Nat}

/-- A seek fails, or goes to an offset that is not negative. -/
theorem Outcome.seek_file {offset answer : Int}
    (hfd : fs.descriptor fd = some (.file node position))
    (outcome : Outcome fs (.seek fd offset answer) fs') :
    answer = -1 ∨ answer = offset ∧ ∃ n : Nat, offset = n ∧
      fs' = fs.setDescriptor fd (some (.file node n)) := by
  cases outcome with
  | done step => exact .inr (step.seek_file hfd)
  | seekFails => exact .inl rfl

/-- A read fails, or gives bytes from the position; nothing only where nothing is left. -/
theorem Outcome.read_file {count : Nat} {content : List Byte} {bytes : Option (List Byte)}
    (hfd : fs.descriptor fd = some (.file node position))
    (hcontent : fs.content node = some content)
    (outcome : Outcome fs (.read fd count bytes) fs') :
    bytes = none ∨ ∃ got, bytes = some got ∧ got <+: (content.drop position).take count ∧
      (got = [] → (content.drop position).take count = []) := by
  cases outcome with
  | done step =>
      obtain ⟨rfl, -⟩ := step.read_file hfd hcontent
      exact .inr ⟨_, rfl, List.prefix_rfl, id⟩
  | readFails => exact .inl rfl
  | readsLess hfd' hcontent' hne hprefix =>
      rw [hfd] at hfd'
      cases hfd'
      rw [hcontent] at hcontent'
      cases hcontent'
      exact .inr ⟨_, rfl, hprefix, fun hnil => absurd hnil hne⟩

end Outcomes

end ConcurrentTcp.Files
