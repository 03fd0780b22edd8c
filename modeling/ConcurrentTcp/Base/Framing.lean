import Mathlib.Data.List.Basic

/-!
Framing of a stream.

A `Framing` tells, from the bytes received so far, the size of the first frame
once the frame is complete. `parse` cuts a whole stream into frames and a
residue. `parse_append` is the reason why a stream may be parsed as it arrives:
the frames of a longer stream are those of the part already received, then those
of its residue with the new bytes.
-/

namespace ConcurrentTcp

/-- The size of the first frame, when it is complete; more input does not
change it. -/
structure Framing (α : Type) where
  size : List α → Option Nat
  size_pos : ∀ {xs n}, size xs = some n → 0 < n
  size_le : ∀ {xs n}, size xs = some n → n ≤ xs.length
  size_append : ∀ {xs n}, size xs = some n → ∀ ys, size (xs ++ ys) = some n

namespace Framing

variable {α : Type} (F : Framing α)

/-- The frames of a stream and what remains after the last of them. -/
def parse (xs : List α) : List (List α) × List α :=
  match _h : F.size xs with
  | none => ([], xs)
  | some n =>
      let rest := parse (xs.drop n)
      (xs.take n :: rest.1, rest.2)
termination_by xs.length
decreasing_by
  have hpos := F.size_pos _h
  have hle := F.size_le _h
  rw [List.length_drop]
  omega

theorem parse_of_none {xs : List α} (h : F.size xs = none) : F.parse xs = ([], xs) := by
  rw [parse]
  split
  · rfl
  · rename_i n hn
    rw [h] at hn
    cases hn

theorem parse_of_some {xs : List α} {n : Nat} (h : F.size xs = some n) :
    F.parse xs = (xs.take n :: (F.parse (xs.drop n)).1, (F.parse (xs.drop n)).2) := by
  rw [parse]
  split
  · rename_i hn
    rw [h] at hn
    cases hn
  · rename_i m hm
    rw [h] at hm
    cases hm
    rfl

/-- Induction along the frames of a stream. -/
theorem parse_induction {motive : List α → Prop} (residue : ∀ xs, F.size xs = none → motive xs)
    (frame : ∀ xs n, F.size xs = some n → motive (xs.drop n) → motive xs) (xs : List α) :
    motive xs := by
  cases hsize : F.size xs with
  | none => exact residue xs hsize
  | some n => exact frame xs n hsize (parse_induction residue frame (xs.drop n))
termination_by xs.length
decreasing_by
  have hpos := F.size_pos hsize
  have hle := F.size_le hsize
  rw [List.length_drop]
  omega

/-- Nothing is lost. -/
theorem flatten_parse (xs : List α) : (F.parse xs).1.flatten ++ (F.parse xs).2 = xs := by
  induction xs using F.parse_induction with
  | residue xs h => simp [F.parse_of_none h]
  | frame xs n h ih =>
      rw [F.parse_of_some h, List.flatten_cons, List.append_assoc, ih, List.take_append_drop]

/-- What remains has no complete frame. -/
theorem size_residue (xs : List α) : F.size (F.parse xs).2 = none := by
  induction xs using F.parse_induction with
  | residue xs h => rw [F.parse_of_none h, h]
  | frame xs n h ih => rwa [F.parse_of_some h]

/-- Parsing may stop anywhere and go on from the residue. -/
theorem parse_append (xs ys : List α) :
    F.parse (xs ++ ys) =
      ((F.parse xs).1 ++ (F.parse ((F.parse xs).2 ++ ys)).1,
        (F.parse ((F.parse xs).2 ++ ys)).2) := by
  induction xs using F.parse_induction with
  | residue xs h => simp [F.parse_of_none h]
  | frame xs n h ih =>
      have hle := F.size_le h
      rw [F.parse_of_some h, F.parse_of_some (F.size_append h ys),
        List.take_append_of_le_length hle, List.drop_append_of_le_length hle, ih]
      rfl

/-- Every frame was cut at the size its stream gave. -/
theorem exists_size_of_mem_parse {xs frame : List α} (h : frame ∈ (F.parse xs).1) :
    ∃ ys, F.size ys = some frame.length ∧ frame = ys.take frame.length := by
  induction xs using F.parse_induction with
  | residue xs hsize =>
      rw [F.parse_of_none hsize] at h
      cases h
  | frame xs n hsize ih =>
      rw [F.parse_of_some hsize] at h
      rcases List.mem_cons.mp h with rfl | later
      · have hlen : (xs.take n).length = n := List.length_take_of_le (F.size_le hsize)
        exact ⟨xs, by rw [hlen, hsize], by rw [hlen]⟩
      · exact ih later

/-- Complete frames sent back to back are recovered, with nothing left. -/
theorem parse_flatten {frames : List (List α)}
    (complete : ∀ frame ∈ frames, F.size frame = some frame.length) :
    F.parse frames.flatten = (frames, []) := by
  induction frames with
  | nil =>
      apply F.parse_of_none
      rw [List.flatten_nil]
      cases hsize : F.size [] with
      | none => rfl
      | some n =>
          have hpos := F.size_pos hsize
          have hle := F.size_le hsize
          rw [List.length_nil] at hle
          omega
  | cons frame frames ih =>
      obtain ⟨here, later⟩ := List.forall_mem_cons.mp complete
      rw [List.flatten_cons, F.parse_of_some (F.size_append here _), List.take_left,
        List.drop_left, ih later]

end Framing

end ConcurrentTcp
