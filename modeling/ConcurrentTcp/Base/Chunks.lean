import Mathlib.Algebra.Order.Floor.Div

/-!
Cutting a list into chunks of one size.

In a chunking nothing is lost or moved, no chunk is empty or too long, and all chunks but
the last are full. How many there are follows from that.
-/

namespace ConcurrentTcp.Chunks

variable {α : Type} {size : Nat} {data : List α} {chunks : List (List α)}

structure Chunked (size : Nat) (data : List α) (chunks : List (List α)) : Prop where
  flatten : chunks.flatten = data
  nonempty : ∀ chunk ∈ chunks, chunk ≠ []
  le : ∀ chunk ∈ chunks, chunk.length ≤ size
  full : ∀ chunk ∈ chunks.dropLast, chunk.length = size

/-- What follows the first chunk is chunked. -/
theorem Chunked.tail {chunk : List α} (h : Chunked size data (chunk :: chunks)) :
    Chunked size chunks.flatten chunks where
  flatten := rfl
  nonempty := fun c hc => h.nonempty c (List.mem_cons_of_mem _ hc)
  le := fun c hc => h.le c (List.mem_cons_of_mem _ hc)
  full := by
    intro c hc
    cases chunks with
    | nil => simp at hc
    | cons next chunks => exact h.full c (List.mem_cons_of_mem _ hc)

/-- There are as many chunks as it takes. -/
theorem Chunked.length_eq (hsize : 0 < size) (h : Chunked size data chunks) :
    chunks.length = data.length ⌈/⌉ size := by
  induction chunks generalizing data with
  | nil =>
      obtain rfl := h.flatten
      simp
  | cons chunk chunks ih =>
      have hrest := ih h.tail
      obtain rfl := h.flatten
      rw [List.flatten_cons, List.length_append, List.length_cons, hrest,
        Nat.ceilDiv_eq_add_pred_div, Nat.ceilDiv_eq_add_pred_div]
      cases chunks with
      | nil =>
          -- The last chunk: between 1 and `size`.
          have hpos := List.length_pos_iff.mpr (h.nonempty chunk List.mem_cons_self)
          have hle := h.le chunk List.mem_cons_self
          have hone : (chunk.length + size - 1) / size = 1 :=
            Nat.div_eq_of_lt_le (by omega) (by omega)
          have hnone : (size - 1) / size = 0 := Nat.div_eq_of_lt (by omega)
          simp [hone, hnone]
      | cons next chunks =>
          have hfull := h.full chunk List.mem_cons_self
          have hsum : chunk.length + (next :: chunks).flatten.length + size - 1 =
              (next :: chunks).flatten.length + size - 1 + size := by omega
          rw [hsum, Nat.add_div_right _ hsize]

end ConcurrentTcp.Chunks
