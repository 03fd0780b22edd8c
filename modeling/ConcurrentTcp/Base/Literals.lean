import Mathlib.Data.List.TakeWhile

/-!
Literals that end with a delimiter, and write a delimiter of their value twice.

`escape` writes a value and `scan` reads it. A value without delimiters is written as it
is; only such values are.
-/

namespace ConcurrentTcp.Literals

variable {α : Type} [DecidableEq α]

/-- The value between its delimiters. -/
def escape (q : α) : List α → List α
  | [] => []
  | c :: s => if c = q then q :: q :: escape q s else c :: escape q s

/-- What follows an opening delimiter: the value, and the text after the literal. -/
def scan (q : α) : List α → Option (List α × List α)
  | [] => none
  | [c] => if c = q then some ([], []) else none
  | c :: d :: s =>
      if c = q then
        if d = q then (scan q s).map fun read => (q :: read.1, read.2) else some ([], d :: s)
      else (scan q (d :: s)).map fun read => (c :: read.1, read.2)

variable {q : α} {s rest : List α}

theorem scan_cons {c : α} (hc : c ≠ q) :
    scan q (c :: s) = (scan q s).map fun read => (c :: read.1, read.2) := by
  cases s with
  | nil => simp [scan, hc]
  | cons d s => simp [scan, hc]

theorem scan_delimiter (hrest : rest.head? ≠ some q) : scan q (q :: rest) = some ([], rest) := by
  cases rest with
  | nil => simp [scan]
  | cons d rest =>
      have hd : d ≠ q := by simpa using hrest
      simp [scan, hd]

/-- A literal reads as the value it was written from. -/
theorem scan_escape (hrest : rest.head? ≠ some q) :
    scan q (escape q s ++ q :: rest) = some (s, rest) := by
  induction s with
  | nil => exact scan_delimiter hrest
  | cons c s ih =>
      by_cases hc : c = q
      · simp [escape, hc, scan, ih]
      · simp [escape, hc, scan_cons, ih]

/-- A literal that does not end is none. -/
theorem scan_unterminated : scan q (escape q s) = none := by
  induction s with
  | nil => rfl
  | cons c s ih =>
      by_cases hc : c = q
      · simp [escape, hc, scan, ih]
      · simp [escape, hc, scan_cons, ih]

/-- What was written is read in one way only. -/
theorem escape_append_inj {s' rest' : List α} (hrest : rest.head? ≠ some q)
    (hrest' : rest'.head? ≠ some q)
    (h : escape q s ++ q :: rest = escape q s' ++ q :: rest') : s = s' ∧ rest = rest' := by
  have hread := congrArg (scan q) h
  rw [scan_escape hrest, scan_escape hrest'] at hread
  simpa using hread

/-- A literal does not end with its value. -/
theorem escape_ne_append {s' : List α} (hrest : rest.head? ≠ some q) :
    escape q s' ≠ escape q s ++ q :: rest := by
  intro h
  have hread := congrArg (scan q) h
  rw [scan_unterminated, scan_escape hrest] at hread
  cases hread

theorem escape_of_notMem (h : q ∉ s) : escape q s = s := by
  induction s with
  | nil => rfl
  | cons c s ih =>
      obtain ⟨hc, hs⟩ := not_or.mp (List.mem_cons.not.mp h)
      rw [escape, if_neg (Ne.symm hc), ih hs]

theorem mem_escape {c : α} : c ∈ escape q s ↔ c ∈ s := by
  induction s with
  | nil => rfl
  | cons d s ih =>
      by_cases hd : d = q
      · simp [escape, hd, ih]
      · simp [escape, hd, ih]

theorem length_le_escape : s.length ≤ (escape q s).length := by
  induction s with
  | nil => simp [escape]
  | cons c s ih =>
      by_cases hc : c = q
      · simp only [escape, hc, if_true, List.length_cons]
        omega
      · simpa [escape, hc] using ih

/-- Only a value without delimiters is written as it is. -/
theorem escape_eq_self_iff : escape q s = s ↔ q ∉ s := by
  refine ⟨fun h hmem => ?_, escape_of_notMem⟩
  induction s with
  | nil => cases hmem
  | cons c s ih =>
      by_cases hc : c = q
      · have hlength := congrArg List.length h
        have hle := length_le_escape (q := q) (s := s)
        simp [escape, hc] at hlength
        omega
      · rw [escape, if_neg hc] at h
        exact ih (List.cons.inj h).2 ((List.mem_cons.mp hmem).resolve_left (Ne.symm hc))

/-- A literal that is cut at another letter is a cut value. -/
theorem takeWhile_escape {c : α} (hc : c ≠ q) :
    (escape q s).takeWhile (· ≠ c) = escape q (s.takeWhile (· ≠ c)) := by
  induction s with
  | nil => rfl
  | cons d s ih =>
      simp only [ne_eq, decide_not] at ih ⊢
      by_cases hd : d = q
      · simp [escape, hd, Ne.symm hc, ih]
      · by_cases hdc : d = c
        · simp [escape, hdc, hc]
        · simp [escape, hd, hdc, ih]

end ConcurrentTcp.Literals
