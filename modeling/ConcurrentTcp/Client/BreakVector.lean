import ConcurrentTcp.Base.Chunks
import ConcurrentTcp.Client.Utils

/-!
`break_vector_into` (`common/utils.hpp`) as a partition.

The ranges it hands to the constructors of the pieces lie inside the data, and the pieces
are the data cut at multiples of the size: what an upload rests on for files of any length.
-/

namespace ConcurrentTcp

open Chunks

/-- The iterator ranges from which `break_vector_into` makes its pieces, as offsets. -/
def breakRanges (size dataSize : Nat) : List (Nat × Nat) :=
  let numVecs := dataSize / size
  let remaining := dataSize % size
  let whole := (List.range numVecs).map fun i => (i * size, (i + 1) * size)
  if remaining > 0 then whole ++ [(numVecs * size, dataSize)] else whole

/-- `std::vector<uint8_t>(data.begin() + range.1, data.begin() + range.2)` -/
def pieceOf (data : List UInt8) (range : Nat × Nat) : List UInt8 :=
  (data.drop range.1).take (range.2 - range.1)

variable {size : Nat} {data : List UInt8}

theorem breakVectorInto_eq_map_pieceOf (size : Nat) (data : List UInt8) :
    breakVectorInto size data = (breakRanges size data.length).map (pieceOf data) := by
  have whole : ((List.range (data.length / size)).map fun i => (data.drop (i * size)).take size) =
      ((List.range (data.length / size)).map fun i => (i * size, (i + 1) * size)).map
        (pieceOf data) := by
    rw [List.map_map]
    refine List.map_congr_left fun i _ => ?_
    have hlen : (i + 1) * size - i * size = size := by
      rw [Nat.succ_mul]
      omega
    simp only [Function.comp_apply, pieceOf, hlen]
  have last : pieceOf data (data.length / size * size, data.length) =
      data.drop (data.length / size * size) :=
    List.take_of_length_le (by simp)
  unfold breakVectorInto breakRanges
  dsimp only
  split
  · rw [whole, List.map_append, List.map_singleton, last]
  · exact whole

/-- A range does not end before it begins, nor beyond the data; so its products of a
`size_t` do not wrap. -/
theorem breakRanges_inside {dataSize : Nat} {range : Nat × Nat}
    (h : range ∈ breakRanges size dataSize) : range.1 ≤ range.2 ∧ range.2 ≤ dataSize := by
  have hdivides : dataSize / size * size ≤ dataSize := Nat.div_mul_le_self dataSize size
  have whole : ∀ range ∈ (List.range (dataSize / size)).map fun i => (i * size, (i + 1) * size),
      range.1 ≤ range.2 ∧ range.2 ≤ dataSize := by
    intro range hmem
    obtain ⟨i, hi, rfl⟩ := List.mem_map.mp hmem
    have hend : (i + 1) * size ≤ dataSize / size * size :=
      Nat.mul_le_mul_right _ (List.mem_range.mp hi)
    exact ⟨Nat.mul_le_mul_right _ (Nat.le_succ i), Nat.le_trans hend hdivides⟩
  unfold breakRanges at h
  dsimp only at h
  split at h
  · rcases List.mem_append.mp h with hmem | hlast
    · exact whole range hmem
    · rw [List.mem_singleton.mp hlast]
      exact ⟨hdivides, Nat.le_refl _⟩
  · exact whole range h

/-- All pieces but the last are as long as they can be. -/
theorem length_of_mem_dropLast_breakVectorInto {piece : List UInt8}
    (h : piece ∈ (breakVectorInto size data).dropLast) : piece.length = size := by
  unfold breakVectorInto at h
  dsimp only at h
  split at h
  · rw [List.dropLast_concat] at h
    exact length_of_mem_wholePieces h
  · exact length_of_mem_wholePieces (List.mem_of_mem_dropLast h)

theorem chunked_breakVectorInto (hsize : 0 < size) (data : List UInt8) :
    Chunked size data (breakVectorInto size data) where
  flatten := flatten_breakVectorInto size data
  nonempty := fun _ hmem => List.length_pos_iff.mp (length_of_mem_breakVectorInto hsize hmem).1
  le := fun _ hmem => (length_of_mem_breakVectorInto hsize hmem).2
  full := fun _ hmem => length_of_mem_dropLast_breakVectorInto hmem

/-! ### The partition -/

/-- The pieces of `data`, and the packets that carry them. -/
structure LosslessPartition (size : Nat) (data : List UInt8) : Prop where
  flatten : (breakVectorInto size data).flatten = data
  count : (breakVectorInto size data).length = data.length ⌈/⌉ size
  nonempty : ∀ piece ∈ breakVectorInto size data, piece ≠ []
  full : ∀ piece ∈ (breakVectorInto size data).dropLast, piece.length = size
  ranges : breakVectorInto size data = (breakRanges size data.length).map (pieceOf data)
  inside : ∀ range ∈ breakRanges size data.length, range.1 ≤ range.2 ∧ range.2 ≤ data.length
  totalSize : size ≤ 65531 → ∀ piece ∈ breakVectorInto size data,
    sizeofPacketHeader + piece.length < 2 ^ 16 ∧
      ∀ junk, (fileTransferChunk junk piece).totalSize = sizeofPacketHeader + piece.length

/-- Any data is cut without loss into pieces of a size that is not 0. -/
theorem breakVectorInto_partition (hsize : 1 ≤ size) (data : List UInt8) :
    LosslessPartition size data := by
  have chunked := chunked_breakVectorInto hsize data
  refine ⟨chunked.flatten, chunked.length_eq hsize, chunked.nonempty, chunked.full,
    breakVectorInto_eq_map_pieceOf size data, fun range hmem => breakRanges_inside hmem, ?_⟩
  intro hfits piece hmem
  have hlen := chunked.le piece hmem
  have htotal : sizeofPacketHeader + piece.length < 2 ^ 16 := by
    simp only [sizeofPacketHeader]
    omega
  refine ⟨htotal, fun junk => ?_⟩
  rw [totalSize_fileTransferChunk, Nat.mod_eq_of_lt htotal]

/-- Five bytes in twos: two whole pieces and a remainder. -/
theorem breakVectorInto_partition_five :
    breakVectorInto 2 [1, 2, 3, 4, 5] = [[1, 2], [3, 4], [5]] ∧
      LosslessPartition 2 [1, 2, 3, 4, 5] :=
  ⟨rfl, breakVectorInto_partition (by decide) _⟩

end ConcurrentTcp
