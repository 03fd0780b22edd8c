import ConcurrentTcp.Common.Bytes
import ConcurrentTcp.Base.LexicalPath
import Mathlib.Data.List.DropRight

/-!
Path components and `std::filesystem::path` values.

A component is *named* when it is the name of a directory entry: not empty, not
`.` or `..`, and without a separator. Directory iterators yield named
components, and an absolute, lexically normal path is a list of them. `resolve`
is the lexical meaning of a relative path string.
-/

namespace ConcurrentTcp

open LexicalPath

/-- The name of a directory entry. -/
def Named (s : Str) : Prop := s ≠ [] ∧ slash ∉ s ∧ s ≠ ascii "." ∧ s ≠ ascii ".."

instance (s : Str) : Decidable (Named s) := by unfold Named; infer_instance

/-- A directory entry's name. -/
structure EntryName where
  name : Str
  named : Named name

/-- Each name with a separator before it: `/a/b`. -/
def slashed (names : List Str) : Str := names.flatMap fun n => slash :: n

/-- An absolute, lexically normal path: what `weakly_canonical` returns. The
result keeps a final separator when the path it was given ends in one and does
not exist. -/
structure FsPath where
  names : List Str
  finalSlash : Bool
  named : ∀ n ∈ names, Named n
  final : finalSlash = true → names ≠ []

namespace FsPath

/-- `path::string()`. -/
def string (p : FsPath) : Str :=
  if p.names = [] then [slash]
  else slashed p.names ++ (if p.finalSlash then [slash] else [])

end FsPath

/-- `operator/` of two paths: an absolute right operand replaces the left one,
otherwise a separator is added unless the left one ends in a separator or is
empty. -/
def fsAppend (base rest : Str) : Str :=
  if rest.head? = some slash then rest
  else if base = [] ∨ base.getLast? = some slash then base ++ rest
  else base ++ slash :: rest

/-! ### Lexical resolution of path strings -/

/-- What a component asks for. -/
def toMove (s : Str) : Move Str :=
  if s = [] ∨ s = ascii "." then .stay
  else if s = ascii ".." then .up
  else .enter s

/-- Resolve a relative path string from the server's working directory. -/
def resolve (path : Str) : Loc Str :=
  walk Loc.start ((path.splitOn slash).map toMove)

theorem toMove_named {s : Str} (h : Named s) : toMove s = .enter s := by
  obtain ⟨hne, -, hdot, hdotdot⟩ := h
  simp [toMove, hne, hdot, hdotdot]

/-- A path below another is resolved from where the other ends. -/
theorem resolve_append_slash (path rest : Str) :
    resolve (path ++ slash :: rest) =
      walk (resolve path) ((rest.splitOn slash).map toMove) := by
  unfold resolve
  rw [List.splitOn_append_cons_self, List.map_append, walk_append]

/-- A path whose last part has no separator ends with one move. -/
theorem resolve_child {path last : Str} (h : slash ∉ last) :
    resolve (path ++ slash :: last) = (resolve path).move (toMove last) := by
  rw [resolve_append_slash, List.splitOn_eq_singleton h]
  rfl

@[simp] theorem slashed_nil : slashed [] = [] := rfl

@[simp] theorem slashed_cons (n : Str) (ns : List Str) :
    slashed (n :: ns) = slash :: n ++ slashed ns := rfl

theorem slashed_append (ms ns : List Str) : slashed (ms ++ ns) = slashed ms ++ slashed ns := by
  simp [slashed]

/-- Named components only descend. -/
theorem resolve_slashed {path : Str} {names : List Str} (h : ∀ n ∈ names, Named n) :
    resolve (path ++ slashed names) = ⟨(resolve path).ups, (resolve path).names ++ names⟩ := by
  induction names generalizing path with
  | nil => simp
  | cons n ns ih =>
      obtain ⟨hn, hns⟩ := List.forall_mem_cons.mp h
      have hassoc : path ++ slashed (n :: ns) = (path ++ slash :: n) ++ slashed ns := by simp
      rw [hassoc, ih hns, resolve_child hn.2.1, toMove_named hn]
      simp

/-- A path below `base` by named components, then one part. -/
theorem resolve_below {base part : Str} {front : List Str} (hfront : ∀ n ∈ front, Named n)
    (hpart : slash ∉ part) :
    resolve (base ++ slashed front ++ slash :: part) =
      (Loc.mk (resolve base).ups ((resolve base).names ++ front)).move (toMove part) := by
  rw [resolve_child hpart, resolve_slashed hfront]

/-- Such a path leaves `base` only as `base/..`. -/
theorem atOrBelow_below_iff {base part : Str} {front : List Str} (hfront : ∀ n ∈ front, Named n)
    (hpart : slash ∉ part) :
    AtOrBelow (resolve base) (resolve (base ++ slashed front ++ slash :: part)) ↔
      ¬ (front = [] ∧ part = ascii "..") := by
  rw [resolve_below hfront hpart]
  by_cases hstay : part = [] ∨ part = ascii "."
  · have hmove : toMove part = .stay := if_pos hstay
    rw [hmove]
    apply iff_of_true (atOrBelow_append _ _)
    rintro ⟨-, rfl⟩
    exact absurd hstay (by decide)
  by_cases hup : part = ascii ".."
  · have hmove : toMove part = .up := by rw [toMove, if_neg hstay, if_pos hup]
    rw [hmove]
    rcases List.eq_nil_or_concat front with rfl | ⟨ns, n, rfl⟩
    · rw [List.append_nil]
      exact iff_of_false (not_atOrBelow_up_self _) fun h => h ⟨rfl, hup⟩
    · rw [List.concat_eq_append, ← List.append_assoc, Loc.move_up_concat]
      exact iff_of_true (atOrBelow_append _ _) fun h => by simp at h
  · have hmove : toMove part = .enter part := by rw [toMove, if_neg hstay, if_neg hup]
    rw [hmove, Loc.move_enter, List.append_assoc]
    exact iff_of_true (atOrBelow_append _ _) fun h => hup h.2

/-- The path `base/..` has no components between. -/
theorem below_eq_parent_iff {base part : Str} {front : List Str} :
    base ++ slashed front ++ slash :: part = base ++ slash :: ascii ".." ↔
      front = [] ∧ part = ascii ".." := by
  rw [List.append_assoc, List.append_cancel_left_eq]
  constructor
  · intro heq
    cases front with
    | nil => exact ⟨rfl, List.cons_inj_right slash |>.mp heq⟩
    | cons n ns =>
        have htail : n ++ slashed ns ++ slash :: part = ascii ".." :=
          List.cons_inj_right slash |>.mp heq
        have hmem : slash ∈ ascii ".." := htail ▸ List.mem_append_right _ List.mem_cons_self
        exact absurd hmem (by decide)
  · rintro ⟨rfl, rfl⟩
    rfl

/-- A prefix of slashed names is cut inside one of them. -/
theorem prefix_slashed {t : Str} {ns : List Str} (h : t <+: slashed ns) :
    t = [] ∨ ∃ front part n, t = slashed front ++ slash :: part ∧ front ++ [n] <+: ns ∧
      part <+: n := by
  induction ns generalizing t with
  | nil => exact .inl (List.prefix_nil.mp h)
  | cons n ns ih =>
      cases t with
      | nil => exact .inl rfl
      | cons b rest =>
          right
          rw [slashed_cons, List.cons_append] at h
          obtain ⟨rfl, hrest⟩ := List.cons_prefix_cons.mp h
          rcases List.prefix_or_prefix_of_prefix hrest (List.prefix_append n (slashed ns)) with
            inside | ⟨more, rfl⟩
          · exact ⟨[], rest, n, rfl, by simp, inside⟩
          · rcases ih ((List.prefix_append_right_inj n).mp hrest) with
              rfl | ⟨front, part, m, rfl, hfront, hpart⟩
            · exact ⟨[], n, n, by simp, by simp, List.prefix_rfl⟩
            · exact ⟨n :: front, part, m, by simp, List.cons_prefix_cons.mpr ⟨rfl, hfront⟩, hpart⟩

/-! ### Splitting and joining at the separator -/

theorem intercalate_slash_cons (n : Str) (ns : List Str) :
    [slash].intercalate (n :: ns) = n ++ slashed ns := by
  induction ns generalizing n with
  | nil => simp
  | cons m ms ih => rw [List.intercalate_cons_cons, ih, slashed_cons]; simp

/-- The parts of a split have no separator. -/
theorem slash_notMem_of_mem_splitOn {path part : Str} (h : part ∈ path.splitOn slash) :
    slash ∉ part := by
  induction path generalizing part with
  | nil =>
      rw [List.splitOn_nil, List.mem_singleton] at h
      simp [h]
  | cons b bs ih =>
      rw [List.splitOn_cons_eq_if_modifyHead] at h
      obtain ⟨first, rest, hsplit⟩ := List.exists_cons_of_ne_nil (List.splitOn_ne_nil slash bs)
      rw [hsplit] at h ih
      split at h
      · rcases List.mem_cons.mp h with rfl | h
        · simp
        · exact ih h
      · rename_i hb
        rw [List.modifyHead_cons] at h
        rcases List.mem_cons.mp h with rfl | h
        · have hne : slash ≠ b := fun heq => hb (by simp [heq])
          simpa [hne] using ih List.mem_cons_self
        · exact ih (List.mem_cons_of_mem _ h)

/-! ### Canonical paths without symbolic links -/

namespace FsPath

/-- The path with these components. -/
def ofEntries (entries : List EntryName) : FsPath where
  names := entries.map (·.name)
  finalSlash := false
  named := by
    intro n hn
    obtain ⟨entry, -, rfl⟩ := List.mem_map.mp hn
    exact entry.named
  final := by simp

/-- What a part of a path does to the components walked so far. -/
def enterPart (entries : List EntryName) (part : Str) : List EntryName :=
  if h : Named part then entries ++ [⟨part, h⟩]
  else if part = ascii ".." then entries.dropLast
  else entries

/-- The canonical path of an existing file, seen from the directory `cwd`, in a
file system without symbolic links. -/
def lexical (cwd : List EntryName) (path : Str) : FsPath :=
  ofEntries ((path.splitOn slash).foldl enterPart (if path.head? = some slash then [] else cwd))

theorem foldl_enterPart (start entries : List EntryName) :
    (entries.map (·.name)).foldl enterPart start = start ++ entries := by
  induction entries generalizing start with
  | nil => simp
  | cons entry entries ih =>
      have henter : enterPart start entry.name = start ++ [entry] := dif_pos entry.named
      rw [List.map_cons, List.foldl_cons, henter, ih]
      simp

/-- A canonical path is its own canonical path. -/
theorem lexical_string (cwd : List EntryName) (entries : List EntryName) :
    lexical cwd (ofEntries entries).string = ofEntries entries := by
  cases entries with
  | nil => rfl
  | cons entry entries =>
      have hstring : (ofEntries (entry :: entries)).string =
          slash :: [slash].intercalate ((entry :: entries).map (·.name)) := by
        rw [List.map_cons, intercalate_slash_cons]
        simp [FsPath.string, ofEntries, slashed]
      have hsplit : ([slash].intercalate ((entry :: entries).map (·.name))).splitOn slash =
          (entry :: entries).map (·.name) := by
        refine List.splitOn_intercalate slash ?_ (by simp)
        intro n hn
        obtain ⟨e, -, rfl⟩ := List.mem_map.mp hn
        exact e.named.2.1
      have hwhole : (slash :: [slash].intercalate ((entry :: entries).map (·.name))).splitOn slash =
          [] :: (entry :: entries).map (·.name) := by
        have hcons := List.splitOn_append_cons_self (a := slash) []
          ([slash].intercalate ((entry :: entries).map (·.name)))
        rw [hsplit, List.splitOn_nil] at hcons
        exact hcons
      unfold lexical
      rw [hstring, hwhole, List.head?_cons, if_pos rfl, List.foldl_cons]
      have hroot : enterPart [] [] = [] := by decide
      rw [hroot, foldl_enterPart, List.nil_append]

end FsPath

/-! ### Last component of a path string -/

/-- The path up to its last separator. -/
def parentPath (path : Str) : Str := (path.rdropWhile (· ≠ slash)).dropLast

/-- What follows the last separator. -/
def filename (path : Str) : Str := path.rtakeWhile (· ≠ slash)

theorem slash_notMem_filename (path : Str) : slash ∉ filename path := by
  intro hmem
  have := List.mem_rtakeWhile_imp hmem
  simp at this

theorem parentPath_filename {path : Str} (h : slash ∈ path) :
    parentPath path ++ slash :: filename path = path := by
  have hne : path.rdropWhile (· ≠ slash) ≠ [] := by
    intro hnil
    have := List.rdropWhile_eq_nil_iff.mp hnil slash h
    simp at this
  have hlast : (path.rdropWhile (· ≠ slash)).getLast hne = slash := by
    have := List.rdropWhile_last_not _ _ hne
    simpa using this
  have hsplit := List.rdropWhile_append_rtakeWhile (p := (· ≠ slash)) (l := path)
  rw [← List.dropLast_append_getLast hne, hlast] at hsplit
  simpa [parentPath, filename] using hsplit

/-- Appending text without a separator changes the last component only. -/
theorem resolve_append {path suffix : Str} (hpath : slash ∈ path) (hsuffix : slash ∉ suffix) :
    resolve (path ++ suffix) =
      (resolve (parentPath path)).move (toMove (filename path ++ suffix)) := by
  have hlast : slash ∉ filename path ++ suffix := by
    simp [slash_notMem_filename, hsuffix]
  have hjoin : path ++ suffix = parentPath path ++ slash :: (filename path ++ suffix) := by
    rw [← List.cons_append, ← List.append_assoc, parentPath_filename hpath]
  rw [hjoin, resolve_child hlast]

end ConcurrentTcp
