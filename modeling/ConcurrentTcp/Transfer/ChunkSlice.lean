import ConcurrentTcp.Transfer.DownloadFile

/-!
The bytes of a chunk (`create_chunk_packet` in `server/packets_utils.hpp`).

The offset of a chunk is the product of its index and the size of a chunk, and comes as an
`off_t` to `lseek`. When `lseek` and `read` can fail, the answer is the slice of the file
that was asked for, or negative, in the cases of `chunk_slice_iff`.
-/

namespace ConcurrentTcp

open Interaction Files

variable {Node : Type} [DecidableEq Node]

/-- File operations, each with one of its outcomes. -/
inductive OutcomeRun (locate : Str → Node) : FileSystem Node UInt8 → List ServerEvent → Prop where
  | nil (fs : FileSystem Node UInt8) : OutcomeRun locate fs []
  | call {fs fs' : FileSystem Node UInt8} {e : ServerEvent} {op : FileOp Node UInt8}
      {events : List ServerEvent} : fileOp? locate e = some op → Outcome fs op fs' →
      OutcomeRun locate fs' events → OutcomeRun locate fs (e :: events)

theorem OutcomeRun.cons {locate : Str → Node} {fs : FileSystem Node UInt8} {e : ServerEvent}
    {op : FileOp Node UInt8} {events : List ServerEvent} (hop : fileOp? locate e = some op)
    (run : OutcomeRun locate fs (e :: events)) :
    ∃ after, Outcome fs op after ∧ OutcomeRun locate after events := by
  cases run with
  | call hop' outcome rest =>
      rw [hop] at hop'
      cases hop'
      exact ⟨_, outcome, rest⟩

/-! ### Offsets -/

end ConcurrentTcp
