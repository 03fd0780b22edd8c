/-!
Lexical resolution of relative paths.

A path is a sequence of moves: stay, go up, or enter a named child. `walk`
resolves a sequence from a location, and a location is a number of steps above
the starting directory followed by the names entered from there. No file system
is consulted, so this is resolution in the absence of symbolic links.

`AtOrBelow` and `StrictlyBelow` compare locations by their names, component by
component. The results say which moves keep a location inside a root.
-/

namespace ConcurrentTcp.LexicalPath

/-- What one component of a path asks for. -/
inductive Move (N : Type) where
  | stay
  | up
  | enter (name : N)
deriving DecidableEq, Repr

/-- Where a walk has got to: `ups` levels above the start, then down `names`. -/
structure Loc (N : Type) where
  ups : Nat
  names : List N
deriving DecidableEq, Repr

variable {N : Type}

/-- The directory a walk starts in. -/
def Loc.start : Loc N := ⟨0, []⟩

/-- One move. Going up with nothing left to leave climbs above the start. -/
def Loc.move (l : Loc N) : Move N → Loc N
  | .stay => l
  | .up =>
      match l.names with
      | [] => ⟨l.ups + 1, []⟩
      | _ :: _ => ⟨l.ups, l.names.dropLast⟩
  | .enter n => ⟨l.ups, l.names ++ [n]⟩

/-- Resolve a sequence of moves. -/
def walk (l : Loc N) (moves : List (Move N)) : Loc N :=
  moves.foldl Loc.move l

@[simp] theorem walk_nil (l : Loc N) : walk l [] = l := rfl

@[simp] theorem walk_cons (l : Loc N) (m : Move N) (ms : List (Move N)) :
    walk l (m :: ms) = walk (l.move m) ms := rfl

theorem walk_append (l : Loc N) (first second : List (Move N)) :
    walk l (first ++ second) = walk (walk l first) second :=
  List.foldl_append

@[simp] theorem Loc.move_enter (l : Loc N) (n : N) :
    l.move (.enter n) = ⟨l.ups, l.names ++ [n]⟩ := rfl

/-- Going up undoes the last entry. -/
@[simp] theorem Loc.move_up_concat (k : Nat) (ns : List N) (n : N) :
    (Loc.mk k (ns ++ [n])).move .up = ⟨k, ns⟩ := by
  cases ns with
  | nil => rfl
  | cons m ms =>
      show Loc.mk k ((m :: ms ++ [n]).dropLast) = _
      rw [List.dropLast_concat]

/-! ### Containment -/

/-- `l` is `root` or lies below it. -/
def AtOrBelow (root l : Loc N) : Prop :=
  l.ups = root.ups ∧ root.names <+: l.names

/-- `l` lies below `root` and is not `root` itself. -/
def StrictlyBelow (root l : Loc N) : Prop :=
  AtOrBelow root l ∧ l.names ≠ root.names

instance [DecidableEq N] (root l : Loc N) : Decidable (AtOrBelow root l) := by
  unfold AtOrBelow; infer_instance

instance [DecidableEq N] (root l : Loc N) : Decidable (StrictlyBelow root l) := by
  unfold StrictlyBelow; infer_instance

theorem AtOrBelow.refl (root : Loc N) : AtOrBelow root root := ⟨rfl, List.prefix_rfl⟩

/-- A location below the root by the names `ns`. -/
theorem atOrBelow_append (root : Loc N) (ns : List N) :
    AtOrBelow root ⟨root.ups, root.names ++ ns⟩ :=
  ⟨rfl, List.prefix_append _ _⟩

/-- A child lies strictly below the root exactly when its directory is at or
below the root. -/
theorem strictlyBelow_enter_iff {root l : Loc N} {n : N} :
    StrictlyBelow root (l.move (.enter n)) ↔ AtOrBelow root l := by
  constructor
  · rintro ⟨⟨hups, hgrown⟩, hne⟩
    rcases List.prefix_concat_iff.mp hgrown with same | below
    · exact absurd same.symm hne
    · exact ⟨hups, below⟩
  · rintro ⟨hups, hgrown⟩
    refine ⟨⟨hups, hgrown.trans (List.prefix_append _ _)⟩, fun heq => ?_⟩
    have hlen := congrArg List.length heq
    have := hgrown.length_le
    simp only [Loc.move_enter, List.length_append, List.length_cons, List.length_nil] at hlen
    omega

/-- Going up from the root, or from the start, leaves the root. -/
theorem not_atOrBelow_up_self (root : Loc N) : ¬ AtOrBelow root (root.move .up) := by
  rintro ⟨hups, hgrown⟩
  rcases List.eq_nil_or_concat root.names with hnil | ⟨ns, n, hconcat⟩
  · have : root.move .up = ⟨root.ups + 1, []⟩ := by simp [Loc.move, hnil]
    rw [this] at hups
    simp at hups
  · rw [List.concat_eq_append] at hconcat
    obtain ⟨ups, names⟩ := root
    subst hconcat
    rw [Loc.move_up_concat] at hgrown
    have hlen := hgrown.length_le
    simp only [List.length_append, List.length_cons, List.length_nil] at hlen
    omega

end ConcurrentTcp.LexicalPath
