import ConcurrentTcp.Transfer.DownloadFile
import ConcurrentTcp.Transfer.UploadFile

/-!
What is left of the target of a transfer.

Both directions open the target without truncating it and write from its start, so
what was behind the end of the source stays.
-/

namespace ConcurrentTcp

open Interaction Files

variable {Node : Type} [DecidableEq Node]

/-- An upload or a download of `source` that came to its end, with what was in its
target before and what is in it then. A target that is not there has nothing in it. -/
inductive CompletedTransfer (users : DatabaseHandler) (locate home : Str → Node) (c : ConnId)
    (source : List UInt8) : List UInt8 → Option (List UInt8) → Prop where
  | upload {s t : Storage Node} {junk : Nat → Buffer} {name : Str} {events : List ServerEvent} :
      TransferName s.session name → s.session.id ≠ [] →
      HandledAll users locate c s
        ((createFileTransferPackets junk name source maxChunkSize).map Buffer.frame) events t →
      CompletedTransfer users locate home c source
        ((s.files.content (locate (s.session.path name))).getD [])
        (t.files.content (locate (s.session.path name)))
  | download {w w' : ClientWorld Node} {junk : Nat → Buffer} {junkOpen buf : Buffer} {name : Str}
      {events : List ClientEvent} {out : Except Fault Unit} {info : List UInt8} :
      TransferName w.server.session name → w.server.session.id ≠ [] → w.unread = [] →
      w.server.files.content (locate (w.server.session.path name)) = some source →
      Exec (sendPackets junk buf [createDownloadFilePacket junkOpen name]) events out →
      ClientRun users locate home c w events w' → events[1]? = some ⟨.recv, info⟩ →
      info[1]? = some PacketType.respFileOpened.toByte →
      CompletedTransfer users locate home c source ((w.files.content (home name)).getD [])
        (w'.files.content (home name))

section Completed

variable {users : DatabaseHandler} {locate home : Str → Node} {c : ConnId}
  {source old : List UInt8} {final : Option (List UInt8)}

/-- A transfer overwrites its target from the start. -/
theorem CompletedTransfer.final_eq (h : source ≠ [])
    (completed : CompletedTransfer users locate home c source old final) :
    final = some (overwrite old source) := by
  cases completed with
  | upload hname hid handled =>
      obtain ⟨fd, hfree, done, -⟩ := handled.uploaded hname hid h
      exact done.content
  | download hname hid hunread hsource run did hinfo opened =>
      obtain ⟨content, download⟩ := downloaded hname hid hunread run did hinfo opened
      obtain rfl : source = content := Option.some.inj (hsource.symm.trans download.existing)
      exact download.target

end Completed

/-- A target is left with just the source exactly when it was not longer before, in uploads and in
downloads: neither side truncates. An empty source is no transfer of either kind. -/
theorem transfer_replaces_iff {users : DatabaseHandler} {locate home : Str → Node} {c : ConnId}
    {source old : List UInt8} {final : Option (List UInt8)} (h : source ≠ [])
    (completed : CompletedTransfer users locate home c source old final) :
    final = some source ↔ old.length ≤ source.length := by
  rw [completed.final_eq h, Option.some_inj]
  exact overwrite_eq_iff

/-- The server of the example, with a file at the target of an upload. -/
def exampleTarget (old : List UInt8) : Storage Str :=
  { exampleStorage with files := exampleStorage.files.setContent (ascii "./tmp/1/a") old }

/-- A file of one byte can be uploaded over any other. -/
theorem exists_upload_over (old : List UInt8) :
    ∃ final, CompletedTransfer exampleUsers id id 0 [7] old final := by
  have hname : TransferName (exampleTarget old).session (ascii "a") := transferName_example
  have hid : exampleStorage.session.id ≠ [] := by decide
  have hold : (exampleTarget old).files.content (ascii "./tmp/1/a") = some old :=
    FileSystem.content_setContent_self ..
  have hfree : (exampleTarget old).files.descriptor 6 = none := rfl
  obtain ⟨events, t, handled⟩ : ∃ events t, HandledAll exampleUsers id 0 (exampleTarget old)
      ((createFileTransferPackets (fun _ => Buffer.zero) (ascii "a") [7] maxChunkSize).map
        Buffer.frame) events t :=
    exists_uploaded _ hname hid (by simp) (by decide) hfree
  have completed : CompletedTransfer exampleUsers id id 0 [7] _ _ := .upload hname hid handled
  have hpath : ((exampleTarget old).files.content
      (id ((exampleTarget old).session.path (ascii "a")))).getD [] = old :=
    congrArg (Option.getD · []) hold
  rw [hpath] at completed
  exact ⟨_, completed⟩

/-- The second byte of the target stays. -/
theorem shorter_upload_keeps_tail :
    ∃ final, CompletedTransfer exampleUsers id id 0 [7] [1, 2] final ∧ final ≠ some [7] := by
  obtain ⟨final, completed⟩ := exists_upload_over [1, 2]
  refine ⟨final, completed, ?_⟩
  rw [completed.final_eq (by decide)]
  decide

/-- One byte is replaced by one byte. -/
theorem transfer_replaces_byte :
    ∃ final, CompletedTransfer exampleUsers id id 0 [7] [1] final ∧ final = some [7] := by
  obtain ⟨final, completed⟩ := exists_upload_over [1]
  exact ⟨final, completed, (transfer_replaces_iff (by decide) completed).mpr (by decide)⟩

end ConcurrentTcp
