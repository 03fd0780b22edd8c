import ConcurrentTcp.Base.CheckedWalk
import ConcurrentTcp.Base.Environment
import ConcurrentTcp.Server.WorkingDirectory

/-!
What a change of directory means (`cd_command` in `server/io.hpp`).

In a file system that does not change, `cdCommand` is a walk over the parts of the
destination, which checks the directories it enters (`evaluate_cdCommand`). So it
composes (`cd_composes`), and finds the directory the destination names, unless one on the
way is not there (`cd_resolves`).
-/

namespace ConcurrentTcp

open Interaction LexicalPath

/-! ### Splitting and joining -/

/-- The final empty part is not read. -/
theorem splitOn_cases (path : Str) :
    path.splitOn slash = ssplit path slash ∨ path.splitOn slash = ssplit path slash ++ [[]] := by
  unfold ssplit
  dsimp only
  split
  · rename_i hlast
    obtain ⟨front, hsplit⟩ := List.getLast?_eq_some_iff.mp hlast
    rw [hsplit, List.dropLast_concat]
    exact .inr rfl
  · exact .inl rfl

theorem ssplit_ne_nil {path : Str} (h : path ≠ []) : ssplit path slash ≠ [] := by
  intro hnil
  rcases splitOn_cases path with hsplit | hsplit
  · rw [hnil] at hsplit
    exact List.splitOn_ne_nil slash path hsplit
  · rw [hnil] at hsplit
    have hpath : [slash].intercalate (path.splitOn slash) = path := List.intercalate_splitOn slash
    rw [hsplit] at hpath
    exact h hpath.symm

/-! ### A file system that does not change -/

/-- The answers of `exists` and `is_directory`. -/
structure DirectoryTree where
  pathExists : Str → Bool
  isDirectory : Str → Bool

namespace DirectoryTree

def answer (fs : DirectoryTree) : (call : SysCall) → Option call.Answer
  | .pathExists path => some (.ok (fs.pathExists path))
  | .isDirectory path => some (.ok (fs.isDirectory path))
  | _ => none

/-- An existing directory. -/
def isDir (fs : DirectoryTree) (path : Str) : Bool := fs.pathExists path && fs.isDirectory path

/-- The directory with these parts is there. -/
def isDirAt (fs : DirectoryTree) (parts : List Str) : Bool := fs.isDir (sjoin parts slash)

/-- The walk of `cd_command`. It does not go up from "./tmp/USERID". -/
def walkFrom (fs : DirectoryTree) (pathParts parts : List Str) : Option (List Str) :=
  checkedWalk fs.isDirAt 3 pathParts (parts.map toMove)

/-- A name is entered when the directory is there. -/
theorem evaluate_cdParts_enter (fs : DirectoryTree) (pathParts rest : List Str) {part : Str}
    (hup : part ≠ ascii "..") (hname : part ≠ [] ∧ part ≠ ascii ".") :
    evaluate fs.answer (cdParts pathParts (part :: rest)) =
      if fs.isDirAt (pathParts ++ [part]) then
        evaluate fs.answer (cdParts (pathParts ++ [part]) rest)
      else some [] := by
  have hexists : fs.answer (.pathExists (sjoin (pathParts ++ [part]) slash)) =
    some (.ok (fs.pathExists (sjoin (pathParts ++ [part]) slash))) := rfl
  have hdir : fs.answer (.isDirectory (sjoin (pathParts ++ [part]) slash)) =
    some (.ok (fs.isDirectory (sjoin (pathParts ++ [part]) slash))) := rfl
  rw [cdParts, if_neg hup, if_pos hname, sys_bind, evaluate_call hexists, orThrow,
    Prog.ret_bind, isDirAt, isDir]
  cases fs.pathExists (sjoin (pathParts ++ [part]) slash) with
  | false => rfl
  | true =>
      rw [Bool.not_true, if_neg Bool.false_ne_true, sys_bind, evaluate_call hdir, orThrow,
        Prog.ret_bind]
      cases fs.isDirectory (sjoin (pathParts ++ [part]) slash) with
      | false => rfl
      | true => rfl

/-- `cd_command` on the parts of the destination is the walk over their moves. -/
theorem evaluate_cdParts (fs : DirectoryTree) (pathParts parts : List Str) :
    evaluate fs.answer (cdParts pathParts parts) =
      some (((fs.walkFrom pathParts parts).map (sjoin · slash)).getD []) := by
  unfold walkFrom
  induction parts generalizing pathParts with
  | nil => rfl
  | cons part rest ih =>
      rw [List.map_cons, checkedWalk_cons]
      by_cases hup : part = ascii ".."
      · have hmove : toMove part = .up := by
          subst hup
          rfl
        rw [cdParts, if_pos hup, hmove]
        exact ih _
      by_cases hname : part ≠ [] ∧ part ≠ ascii "."
      · have hmove : toMove part = .enter part := by
          rw [toMove, if_neg (not_or.mpr hname), if_neg hup]
        rw [evaluate_cdParts_enter fs pathParts rest hup hname, hmove, checkedMove]
        split
        · exact ih _
        · rfl
      · have hmove : toMove part = .stay := by
          rw [toMove, if_pos]
          by_contra hother
          exact hname (not_or.mp hother)
        rw [cdParts, if_neg hup, if_neg hname, hmove]
        exact ih _

/-- Empty parts of the destination change nothing. -/
theorem walkFrom_ssplit (fs : DirectoryTree) (pathParts : List Str) (destination : Str) :
    fs.walkFrom pathParts (ssplit destination slash) =
      fs.walkFrom pathParts (destination.splitOn slash) := by
  rcases splitOn_cases destination with hsplit | hsplit
  · rw [hsplit]
  · rw [hsplit, walkFrom, walkFrom, List.map_append]
    exact (checkedWalk_stay ..).symm

/-- `cd_command` is a walk over the parts of the destination. -/
theorem evaluate_cdCommand (fs : DirectoryTree) (currentPath destination : Str) :
    evaluate fs.answer (cdCommand currentPath destination) =
      some (((fs.walkFrom (ssplit currentPath slash) (destination.splitOn slash)).map
        (sjoin · slash)).getD []) := by
  rw [cdCommand, evaluate_cdParts, walkFrom_ssplit]

end DirectoryTree

/-! ### Composition -/

/-- Parts that joining and splitting give back. -/
def RealParts (parts : List Str) : Prop :=
  parts ≠ [] ∧ ∀ part ∈ parts, part ≠ [] ∧ slash ∉ part

theorem RealParts.ssplit_sjoin {parts : List Str} (h : RealParts parts) :
    ssplit (sjoin parts slash) slash = parts := ConcurrentTcp.ssplit_sjoin h.1 h.2

theorem RealParts.sjoin_ne_nil {parts : List Str} (h : RealParts parts) :
    sjoin parts slash ≠ [] := by
  intro hnil
  have hsplit := h.ssplit_sjoin
  rw [hnil] at hsplit
  exact h.1 hsplit.symm

/-- A part that is entered is a name. -/
theorem named_of_toMove_enter {part n : Str} (h : toMove part = .enter n) (hpart : slash ∉ part) :
    Named n := by
  unfold toMove at h
  split at h
  · cases h
  · rename_i hname
    split at h
    · cases h
    · rename_i hup
      cases h
      exact ⟨fun hnil => hname (.inl hnil), hpart, fun hdot => hname (.inr hdot), hup⟩

/-- So are those of a destination. -/
theorem named_of_mem_moves {destination n : Str}
    (h : .enter n ∈ (destination.splitOn slash).map toMove) : Named n := by
  obtain ⟨part, hpart, henter⟩ := List.mem_map.mp h
  exact named_of_toMove_enter henter (slash_notMem_of_mem_splitOn hpart)

/-- The parts of a working directory stay so. -/
theorem realParts_walkFrom {fs : DirectoryTree} {pathParts last : List Str} {destination : Str}
    (h : RealParts pathParts)
    (hwalk : fs.walkFrom pathParts (destination.splitOn slash) = some last) : RealParts last := by
  refine checkedWalk_induction (I := RealParts) ?_ h hwalk
  intro parts m next hm hparts hmove
  obtain ⟨hne, hreal⟩ := hparts
  cases m with
  | stay =>
      cases hmove
      exact ⟨hne, hreal⟩
  | up =>
      cases hmove
      by_cases hlong : 3 < parts.length
      · rw [clampedMove, if_pos hlong]
        refine ⟨?_, fun part hpart => hreal part (List.mem_of_mem_dropLast hpart)⟩
        rw [← List.length_pos_iff, List.length_dropLast]
        omega
      · rw [clampedMove, if_neg hlong]
        exact ⟨hne, hreal⟩
  | enter n =>
      rw [checkedMove] at hmove
      split at hmove
      · cases hmove
        have named := named_of_mem_moves hm
        refine ⟨List.append_ne_nil_of_left_ne_nil hne _, fun q hq => ?_⟩
        rcases List.mem_append.mp hq with old | new
        · exact hreal q old
        · rw [List.mem_singleton.mp new]
          exact ⟨named.1, named.2.1⟩
      · cases hmove

/-- A change to `a/b` is the change to `a` and then to `b`, in any tree of directories and from any
directory whose parts are not empty; it fails exactly when one of these does. -/
theorem cd_composes (fs : DirectoryTree) {p : Str} (hp : p ≠ [])
    (hparts : ∀ part ∈ ssplit p slash, part ≠ []) (a b : Str) :
    ∃ first second whole, evaluate fs.answer (cdCommand p a) = some first ∧
      evaluate fs.answer (cdCommand first b) = some second ∧
      evaluate fs.answer (cdCommand p (a ++ slash :: b)) = some whole ∧
      (whole = [] ↔ first = [] ∨ second = []) ∧ (whole ≠ [] → whole = second) := by
  have hreal : RealParts (ssplit p slash) :=
    ⟨ssplit_ne_nil hp, fun part h => ⟨hparts part h, slash_notMem_of_mem_ssplit h⟩⟩
  refine ⟨_, _, _, fs.evaluate_cdCommand .., fs.evaluate_cdCommand .., fs.evaluate_cdCommand .., ?_⟩
  have hwhole : fs.walkFrom (ssplit p slash) ((a ++ slash :: b).splitOn slash) =
      (fs.walkFrom (ssplit p slash) (a.splitOn slash)).bind
        fun mid => fs.walkFrom mid (b.splitOn slash) := by
    unfold DirectoryTree.walkFrom
    rw [List.splitOn_append_cons_self, List.map_append, checkedWalk_append]
  rw [hwhole]
  cases hfirst : fs.walkFrom (ssplit p slash) (a.splitOn slash) with
  | none => simp
  | some mid =>
      have hmid := realParts_walkFrom hreal hfirst
      simp [hmid.ssplit_sjoin, hmid.sjoin_ne_nil]

/-- The tree of all directories without a name that begins with `b`. -/
def exampleTree : DirectoryTree where
  pathExists := fun _ => true
  isDirectory := fun path => !decide (ascii "/b" <:+: path)

theorem cd_composes_example :
    ∃ first second whole, evaluate exampleTree.answer (cdCommand (ascii "./tmp/7") (ascii "a/..")) =
        some first ∧
      evaluate exampleTree.answer (cdCommand first (ascii "b/c")) = some second ∧
      evaluate exampleTree.answer
        (cdCommand (ascii "./tmp/7") (ascii "a/.." ++ slash :: ascii "b/c")) = some whole ∧
      (whole = [] ↔ first = [] ∨ second = []) ∧ (whole ≠ [] → whole = second) :=
  cd_composes exampleTree (by decide) (by decide) (ascii "a/..") (ascii "b/c")

/-! ### The directory that is found -/

/-- The parent of a directory is a directory. -/
def DirectoryTree.ParentsExist (fs : DirectoryTree) : Prop :=
  ∀ path name, path ≠ [] → Named name → fs.isDir (path ++ slash :: name) = true →
    fs.isDir path = true

theorem exampleTree_parents : exampleTree.ParentsExist := by
  intro path name _ _ hdir
  simp only [DirectoryTree.isDir, exampleTree, Bool.true_and, Bool.not_eq_true',
    decide_eq_false_iff_not] at hdir ⊢
  exact fun hin => hdir (hin.trans (List.infix_append' [] path _))

/-- Where the parts of a destination lead from the directory `names` of a user. -/
def resolved (names parts : List Str) : List Str := clampedWalk 0 names (parts.map toMove)

/-- The directories that are appended on the way. -/
def appended (names parts : List Str) : List (List Str) := entered 0 names (parts.map toMove)

/-- From a user's directory, the walk fails at a directory that is not there. -/
theorem walkFrom_rootParts (fs : DirectoryTree) (id : Str) (names parts : List Str) :
    fs.walkFrom (rootParts id names) parts =
      if ∀ d ∈ appended names parts, fs.isDir (userRoot id ++ slashed d) = true then
        some (rootParts id (resolved names parts))
      else none := by
  have hbelow := checkedWalk_below fs.isDirAt (rootParts id []) 0 names (parts.map toMove)
  have hdir : (fun below => fs.isDirAt (rootParts id [] ++ below)) =
      fun below => fs.isDir (userRoot id ++ slashed below) := by
    funext below
    rw [← sjoin_rootParts]
    rfl
  rw [hdir, checkedWalk_eq (fun below => fs.isDir (userRoot id ++ slashed below))] at hbelow
  refine hbelow.trans ?_
  unfold appended resolved
  split
  · rfl
  · rfl

/-- Where the parents are there, a walk from a directory ends in one. -/
theorem isDir_resolved {fs : DirectoryTree} {id : Str} {names : List Str} {destination : Str}
    (parents : fs.ParentsExist) (hnames : ∀ n ∈ names, Named n)
    (hdir : fs.isDir (userRoot id ++ slashed names) = true)
    (hthere : ∀ d ∈ appended names (destination.splitOn slash),
      fs.isDir (userRoot id ++ slashed d) = true) :
    fs.isDir (userRoot id ++ slashed (resolved names (destination.splitOn slash))) = true := by
  have hwalk := checkedWalk_eq (fun below => fs.isDir (userRoot id ++ slashed below)) 0 names
    ((destination.splitOn slash).map toMove)
  replace hwalk := hwalk.trans (if_pos hthere)
  refine (checkedWalk_induction (I := fun names => (∀ n ∈ names, Named n) ∧
    fs.isDir (userRoot id ++ slashed names) = true) ?_ ⟨hnames, hdir⟩ hwalk).2
  intro names m next hm hkept hmove
  obtain ⟨hnames, hdir⟩ := hkept
  cases m with
  | stay =>
      cases hmove
      exact ⟨hnames, hdir⟩
  | up =>
      cases hmove
      rcases List.eq_nil_or_concat names with rfl | ⟨front, last, rfl⟩
      · exact ⟨hnames, hdir⟩
      · have hup : clampedMove 0 (front.concat last) .up = front := by simp [clampedMove]
        have hlast : slashed (front.concat last) = slashed front ++ slash :: last := by
          simp [slashed]
        have hroot : userRoot id ++ slashed front ≠ [] := by simp [userRoot, ascii]
        rw [hup]
        refine ⟨fun n hn => hnames n (by simp [hn]), ?_⟩
        rw [hlast, ← List.append_assoc] at hdir
        exact parents _ last hroot (hnames last (by simp)) hdir
  | enter n =>
      simp only [checkedMove] at hmove
      split at hmove
      · cases hmove
        refine ⟨fun q hq => ?_, by assumption⟩
        rcases List.mem_append.mp hq with old | new
        · exact hnames q old
        · rw [List.mem_singleton.mp new]
          exact named_of_mem_moves hm
      · cases hmove

/-- The change fails where a directory on the way is not there, and otherwise finds the
directory that the destination names. Every directory of the tree has its parent there, and the
change starts in a directory at or below the user's root. -/
theorem cd_resolves {fs : DirectoryTree} {id : Str} {names : List Str} (parents : fs.ParentsExist)
    (hid : Named id) (hnames : ∀ n ∈ names, Named n)
    (hdir : fs.isDir (userRoot id ++ slashed names) = true) (destination : Str) :
    ∃ dir, evaluate fs.answer (cdCommand (userRoot id ++ slashed names) destination) = some dir ∧
      (dir = [] ↔ ∃ d ∈ appended names (destination.splitOn slash),
        fs.isDir (userRoot id ++ slashed d) = false) ∧
      (dir ≠ [] → dir = userRoot id ++ slashed (resolved names (destination.splitOn slash)) ∧
        fs.isDir dir = true) := by
  refine ⟨_, fs.evaluate_cdCommand .., ?_⟩
  rw [ssplit_rootParts hid hnames, walkFrom_rootParts]
  by_cases hthere : ∀ d ∈ appended names (destination.splitOn slash),
      fs.isDir (userRoot id ++ slashed d) = true
  · have hne : userRoot id ++ slashed (resolved names (destination.splitOn slash)) ≠ [] := by
      simp [userRoot, ascii]
    rw [if_pos hthere, Option.map_some, Option.getD_some, sjoin_rootParts]
    refine ⟨iff_of_false hne ?_, fun _ => ⟨rfl, isDir_resolved parents hnames hdir hthere⟩⟩
    rintro ⟨d, hd, hmissing⟩
    rw [hthere d hd] at hmissing
    cases hmissing
  · rw [if_neg hthere]
    refine ⟨iff_of_true rfl ?_, fun hne => absurd rfl hne⟩
    simpa using hthere

theorem cd_resolves_example :
    ∃ dir, evaluate exampleTree.answer
        (cdCommand (userRoot (ascii "7") ++ slashed [ascii "a"]) (ascii "../c/./b")) = some dir ∧
      (dir = [] ↔ ∃ d ∈ appended [ascii "a"] ((ascii "../c/./b").splitOn slash),
        exampleTree.isDir (userRoot (ascii "7") ++ slashed d) = false) ∧
      (dir ≠ [] → dir = userRoot (ascii "7") ++
          slashed (resolved [ascii "a"] ((ascii "../c/./b").splitOn slash)) ∧
        exampleTree.isDir dir = true) :=
  cd_resolves exampleTree_parents (by decide) (by decide) (by decide) (ascii "../c/./b")

end ConcurrentTcp
