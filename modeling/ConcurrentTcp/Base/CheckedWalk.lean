import ConcurrentTcp.Base.LexicalPath

/-!
Walks in a directory tree that do not leave its first levels.

A directory is the list of names that lead to it. `clampedWalk` does not go up from a
directory with `floor` names or fewer, and `checkedWalk` ends without a result when a
directory it enters is not there. `checkedWalk_eq` compares the two.
-/

namespace ConcurrentTcp.LexicalPath

variable {N : Type} {isDir : List N → Bool} {floor : Nat} {names last : List N}
  {moves : List (Move N)}

/-- One move: going up stops at the floor. -/
def clampedMove (floor : Nat) (names : List N) : Move N → List N
  | .stay => names
  | .up => if floor < names.length then names.dropLast else names
  | .enter n => names ++ [n]

def clampedWalk (floor : Nat) (names : List N) (moves : List (Move N)) : List N :=
  moves.foldl (clampedMove floor) names

/-- The directories a walk enters. -/
def entered (floor : Nat) (names : List N) : List (Move N) → List (List N)
  | [] => []
  | .enter n :: rest => (names ++ [n]) :: entered floor (names ++ [n]) rest
  | .stay :: rest => entered floor names rest
  | .up :: rest => entered floor (clampedMove floor names .up) rest

/-- One move, into a directory only if it is there. -/
def checkedMove (isDir : List N → Bool) (floor : Nat) (names : List N) : Move N → Option (List N)
  | .enter n => if isDir (names ++ [n]) then some (names ++ [n]) else none
  | .stay => some names
  | .up => some (clampedMove floor names .up)

def checkedWalk (isDir : List N → Bool) (floor : Nat) (names : List N) (moves : List (Move N)) :
    Option (List N) :=
  moves.foldlM (checkedMove isDir floor) names

theorem checkedWalk_cons (isDir : List N → Bool) (floor : Nat) (names : List N) (m : Move N)
    (moves : List (Move N)) :
    checkedWalk isDir floor names (m :: moves) =
      (checkedMove isDir floor names m).bind fun next => checkedWalk isDir floor next moves :=
  List.foldlM_cons

theorem checkedWalk_append (isDir : List N → Bool) (floor : Nat) (names : List N)
    (first second : List (Move N)) :
    checkedWalk isDir floor names (first ++ second) =
      (checkedWalk isDir floor names first).bind fun mid => checkedWalk isDir floor mid second :=
  List.foldlM_append

/-- To stay at the end changes nothing. -/
theorem checkedWalk_stay (isDir : List N → Bool) (floor : Nat) (names : List N)
    (moves : List (Move N)) :
    checkedWalk isDir floor names (moves ++ [.stay]) = checkedWalk isDir floor names moves := by
  rw [checkedWalk_append]
  exact Option.bind_fun_some _

/-- What each move keeps, the walk keeps. -/
theorem checkedWalk_induction {I : List N → Prop}
    (step : ∀ names m next, m ∈ moves → I names → checkedMove isDir floor names m = some next →
      I next)
    (h : I names) (hwalk : checkedWalk isDir floor names moves = some last) : I last := by
  induction moves generalizing names with
  | nil =>
      cases hwalk
      exact h
  | cons m rest ih =>
      rw [checkedWalk_cons] at hwalk
      obtain ⟨next, hmove, hrest⟩ := Option.bind_eq_some_iff.mp hwalk
      exact ih (fun names m' next' hm => step names m' next' (List.mem_cons_of_mem m hm))
        (step names m next List.mem_cons_self h hmove) hrest

/-- The checks of a walk are on the directories it enters; when they succeed, the walk is
the one without checks. -/
theorem checkedWalk_eq (isDir : List N → Bool) (floor : Nat) (names : List N)
    (moves : List (Move N)) :
    checkedWalk isDir floor names moves =
      if ∀ d ∈ entered floor names moves, isDir d = true then some (clampedWalk floor names moves)
      else none := by
  induction moves generalizing names with
  | nil => simp [checkedWalk, entered, clampedWalk]
  | cons m rest ih =>
      rw [checkedWalk_cons]
      cases m with
      | stay => exact ih names
      | up => exact ih (clampedMove floor names .up)
      | enter n =>
          simp only [checkedMove, entered, List.forall_mem_cons]
          by_cases hdir : isDir (names ++ [n]) = true
          · simp only [hdir, if_true, Option.bind_some, ih, true_and]
            rfl
          · rw [if_neg hdir, if_neg fun h => hdir h.1]
            rfl

/-- Below a root, the names after it are those that count. -/
theorem checkedWalk_below (isDir : List N → Bool) (root : List N) (floor : Nat) (names : List N)
    (moves : List (Move N)) :
    checkedWalk isDir (root.length + floor) (root ++ names) moves =
      (checkedWalk (fun below => isDir (root ++ below)) floor names moves).map (root ++ ·) := by
  induction moves generalizing names with
  | nil => rfl
  | cons m rest ih =>
      rw [checkedWalk_cons, checkedWalk_cons]
      cases m with
      | stay => exact ih names
      | up =>
          have hup : clampedMove (root.length + floor) (root ++ names) .up =
              root ++ clampedMove floor names .up := by
            simp only [clampedMove, List.length_append, Nat.add_lt_add_iff_left]
            by_cases hfloor : floor < names.length
            · have hne : names ≠ [] := List.ne_nil_of_length_pos (Nat.zero_lt_of_lt hfloor)
              rw [if_pos hfloor, if_pos hfloor, List.dropLast_append_of_ne_nil hne]
            · rw [if_neg hfloor, if_neg hfloor]
          simp only [checkedMove, hup, Option.bind_some]
          exact ih _
      | enter n =>
          simp only [checkedMove, List.append_assoc]
          by_cases hdir : isDir (root ++ (names ++ [n])) = true
          · rw [if_pos hdir, if_pos hdir]
            exact ih _
          · rw [if_neg hdir, if_neg hdir]
            rfl

end ConcurrentTcp.LexicalPath
