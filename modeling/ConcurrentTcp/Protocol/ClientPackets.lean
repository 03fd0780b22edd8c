import ConcurrentTcp.Client.Menu
import ConcurrentTcp.Client.Commands
import ConcurrentTcp.Server.Lockstep

/-!
What the client may send.

`IsRequest` is what the server asks of a packet: a whole frame, of a type it answers, and a
setting with all of its value. `isRequest_of_parsed` says that every packet the client makes
of an input line is one, whatever the line and whatever its memory held before;
`isRequest_downloadChunk` says it of the packets of the download loop.
-/

namespace ConcurrentTcp

open Interaction

/-- A frame that the server answers. The handler of a setting reads 13 bytes. -/
structure IsRequest (frame : List UInt8) : Prop where
  wellFormed : WellFormedPacket frame
  answered : ∃ ty : PacketType, ty.isAnswered = true ∧ frame.getD 1 0 = ty.toByte
  setting : frame.getD 1 0 = PacketType.reqSetSetting.toByte → 13 ≤ frame.length

/-- Both parts of a computation went well. -/
theorem exists_of_bind {α β : Type} {x : Except Fault α} {f : α → Except Fault β} {b : β}
    (h : x >>= f = .ok b) : ∃ a, x = .ok a ∧ f a = .ok b := by
  cases x with
  | error e => cases h
  | ok a => exact ⟨a, rfl, h⟩

/-- The type of a request, as its own bytes give it. -/
theorem IsRequest.command {frame : List UInt8} (h : IsRequest frame) (c : ConnId) :
    ∃ ty : PacketType, ty.isAnswered = true ∧
      (ConnectionBuffer.mk c frame).buffer.command = ty.toByte :=
  h.answered

/-! ### Packets -/

section Packets

variable {p : Buffer} {ty : PacketType}

theorem length_frame (p : Buffer) : p.frame.length = p.totalSize := Buffer.length_read ..

/-- The header of a packet decides. -/
theorem isRequest_frame (command : p.command = ty.toByte) (answered : ty.isAnswered = true)
    (size : 4 ≤ p.totalSize) (setting : ty ≠ .reqSetSetting ∨ 13 ≤ p.totalSize) :
    IsRequest p.frame := by
  have hcommand : p.frame.getD 1 0 = ty.toByte := by
    rw [List.getD_eq_getElem?_getD, Buffer.frame, Buffer.getElem?_read _ _ (by omega), Nat.zero_add,
      Option.getD_some]
    exact command
  refine ⟨⟨?_, ?_, ?_⟩, ⟨ty, answered, hcommand⟩, fun hset => ?_⟩
  · rwa [length_frame]
  · have := p.totalSize_lt
    rw [length_frame, uint16Max]
    omega
  · rw [length_frame, Buffer.frame, declaredSize_read _ size]
  · rw [hcommand, PacketType.toByte_inj] at hset
    rw [length_frame]
    exact setting.resolve_left (not_not.mpr hset)

/-- The header is stored last. -/
theorem isRequest_setHeader (b : Buffer) {size : Nat} (answered : ty.isAnswered = true)
    (hsize : 4 ≤ size % 2 ^ 16) (setting : ty ≠ .reqSetSetting) :
    IsRequest (b.setHeader ty size).frame := by
  refine isRequest_frame (Buffer.command_setHeader ..) answered ?_ (.inl setting)
  rwa [Buffer.totalSize_setHeader]

/-- Behind the header anything is stored. -/
theorem isRequest_write (ty : PacketType) {off : Nat} (bytes : List UInt8) (hoff : 4 ≤ off)
    (command : p.command = ty.toByte) (answered : ty.isAnswered = true) (size : 4 ≤ p.totalSize)
    (setting : ty ≠ .reqSetSetting ∨ 13 ≤ p.totalSize) : IsRequest (p.write off bytes).frame := by
  have hsize := Buffer.totalSize_write (b := p) bytes hoff
  refine isRequest_frame ?_ answered ?_ ?_
  · rw [Buffer.command_write _ hoff]
    exact command
  · rwa [hsize]
  · rwa [hsize]

/-- The packets with one path. -/
theorem isRequest_createPathPacket (answered : ty.isAnswered = true) (setting : ty ≠ .reqSetSetting)
    (junk : Buffer) (path : Str) :
    IsRequest (createPathPacket ty sizeofPacketCurrentDirectory junk path).frame :=
  isRequest_setHeader _ answered (by decide) setting

theorem isRequest_createTwoPathsPacket (answered : ty.isAnswered = true)
    (setting : ty ≠ .reqSetSetting) (junk : Buffer) (path1 path2 : Str) :
    IsRequest (PacketController.createTwoPathsPacket ty junk path1 path2).frame :=
  isRequest_setHeader _ answered (by decide) setting

theorem isRequest_createSamplePacket (answered : ty.isAnswered = true)
    (setting : ty ≠ .reqSetSetting) (junk : Buffer) :
    IsRequest (PacketController.createSamplePacket junk ty).frame :=
  isRequest_setHeader _ answered (by decide) setting

theorem isRequest_createLoginPacket (junk : Buffer) (username password : Str) :
    IsRequest (PacketController.createLoginPacket junk username password).frame := by
  refine isRequest_write .reqLogin _ (by decide) ?_ rfl ?_ (.inl (by decide))
  · rw [Buffer.command_write _ (by decide), Buffer.command_setHeader]
  · rw [Buffer.totalSize_write _ (by decide), Buffer.totalSize_setHeader]
    decide

/-- The file names of a compress request leave its header. -/
theorem copyFileNames_header {p q : Buffer} {i : Nat} {paths : List Str}
    (h : PacketController.copyFileNames p i paths = .ok q) :
    q.command = p.command ∧ q.totalSize = p.totalSize := by
  induction paths generalizing p i with
  | nil =>
      cases h
      exact ⟨rfl, rfl⟩
  | cons path rest ih =>
      rw [PacketController.copyFileNames] at h
      split at h
      · have hoff : 4 ≤ 8 + maxFilenameLen * i := by omega
        have hrest := ih h
        rwa [Buffer.command_write _ hoff, Buffer.totalSize_write _ hoff] at hrest
      · cases h

theorem isRequest_createCompressPacket {junk : Buffer} {format : Format} {level : Level}
    {all : Bool} {paths : List Str} {archiveName : Str}
    (h : PacketController.createCompressPacket junk format level all paths archiveName = .ok p) :
    IsRequest p.frame := by
  obtain ⟨command, size⟩ := copyFileNames_header h
  have hoff : 4 ≤ 8 + maxFilenameLen * maxFiles := by decide
  rw [Buffer.command_write _ (by decide), Buffer.command_write _ hoff,
    Buffer.command_write _ (by decide), Buffer.command_setHeader] at command
  rw [Buffer.totalSize_write _ (by decide), Buffer.totalSize_write _ hoff,
    Buffer.totalSize_write _ (by decide), Buffer.totalSize_setHeader] at size
  refine isRequest_frame command rfl ?_ (.inl (by decide))
  rw [size]
  decide

/-- A setting is sent whole. -/
theorem isRequest_createSetSettingPacketWrapped {junk : Buffer} {value : Str}
    (h : PacketController.createSetSettingPacketWrapped junk value = .ok (some p)) :
    IsRequest p.frame := by
  unfold PacketController.createSetSettingPacketWrapped at h
  split at h
  · cases h
  · split at h
    · cases h
    · cases h
      refine isRequest_write .reqSetSetting _ (by decide) ?_ rfl ?_ (.inr ?_)
      · exact Buffer.command_setHeader ..
      · rw [Buffer.totalSize_setHeader]
        decide
      · rw [Buffer.totalSize_setHeader]
        decide

theorem size_fileTransferChunk (junk : Buffer) {chunk : List UInt8}
    (h : chunk.length ≤ uint16Max - sizeofPacketHeader) :
    (fileTransferChunk junk chunk).totalSize = sizeofPacketHeader + chunk.length := by
  rw [totalSize_fileTransferChunk]
  unfold uint16Max at h
  unfold sizeofPacketHeader at *
  exact Nat.mod_eq_of_lt (by omega)

/-- Every packet of an upload, the last one with its command changed. -/
theorem isRequest_createFileTransferPackets {junk : Nat → Buffer} {filePath : Str}
    {content : List UInt8}
    (h : p ∈ createFileTransferPackets junk filePath content (uint16Max - sizeofPacketHeader)) :
    IsRequest p.frame := by
  have one : ∀ q ∈ fileTransferStart (junk 0) filePath ::
      (breakVectorInto (uint16Max - sizeofPacketHeader) content).mapIdx
        (fun i chunk => fileTransferChunk (junk (i + 1)) chunk),
      4 ≤ q.totalSize ∧ ∃ ty : PacketType, ty.isAnswered = true ∧ ty ≠ .reqSetSetting ∧
        q.command = ty.toByte := by
    intro q hq
    rcases List.mem_cons.mp hq with rfl | hq
    · refine ⟨?_, .reqFileTransferStart, rfl, by decide, Buffer.command_setHeader ..⟩
      rw [fileTransferStart, Buffer.totalSize_setHeader]
      decide
    · obtain ⟨i, hi, rfl⟩ := List.mem_mapIdx.mp hq
      have hlength := (length_of_mem_breakVectorInto (by decide) (List.getElem_mem hi)).2
      refine ⟨?_, .reqFileTransferChunk, rfl, by decide, ?_⟩
      · rw [size_fileTransferChunk _ hlength]
        exact Nat.le_add_right ..
      · rw [fileTransferChunk, Buffer.command_write _ (by decide), Buffer.command_setHeader]
  unfold createFileTransferPackets at h
  rcases List.mem_append.mp h with hfront | hlast
  · obtain ⟨size, ty, answered, setting, command⟩ := one p (List.mem_of_mem_dropLast hfront)
    exact isRequest_frame command answered size (.inl setting)
  · obtain ⟨q, hq, rfl⟩ := Option.map_eq_some_iff.mp (Option.mem_toList.mp hlast)
    obtain ⟨size, -⟩ := one q (List.mem_of_getLast? hq)
    refine isRequest_frame (command_endTransfer q) rfl ?_ (.inl (by decide))
    rwa [totalSize_endTransfer]

theorem isRequest_uploadPackets {junk : Nat → Nat → Buffer}
    {readEntireFile : Str → Option (List UInt8)} {i : Nat} {paths : List Str}
    {packets : List Buffer} (h : uploadPackets junk readEntireFile i paths = .ok packets) :
    ∀ p ∈ packets, IsRequest p.frame := by
  induction paths generalizing i packets with
  | nil =>
      cases h
      simp
  | cons path rest ih =>
      rw [uploadPackets] at h
      split at h
      · cases h
      · split at h
        · obtain ⟨later, hlater, heq⟩ := exists_of_bind h
          cases heq
          intro p hp
          rcases List.mem_append.mp hp with here | there
          · exact isRequest_createFileTransferPackets here
          · exact ih hlater p there
        · cases h

/-- The packets of the download loop. -/
theorem isRequest_downloadChunk (junk : Buffer) (chunk : Nat) :
    IsRequest (downloadChunkRequest junk chunk).frame := by
  refine isRequest_write .reqFileDownloadChunk _ (by decide) ?_ rfl ?_ (.inl (by decide))
  · exact Buffer.command_setHeader ..
  · rw [Buffer.totalSize_setHeader]
    decide

end Packets

/-! ### Commands -/

/-- Whatever packets come out of it are requests. -/
def MakesRequests (result : Except Fault (Option (List Buffer))) : Prop :=
  ∀ packets, result = .ok (some packets) → ∀ p ∈ packets, IsRequest p.frame

section Commands

variable {result other : Except Fault (Option (List Buffer))} {p : Buffer}

theorem makesRequests_ite {c : Prop} [Decidable c] (first : MakesRequests result)
    (second : MakesRequests other) : MakesRequests (if c then result else other) := by
  split
  · exact first
  · exact second

theorem makesRequests_bind {α : Type} {x : Except Fault α}
    {f : α → Except Fault (Option (List Buffer))} (h : ∀ a, x = .ok a → MakesRequests (f a)) :
    MakesRequests (x >>= f) := by
  intro packets heq
  obtain ⟨a, hx, hf⟩ := exists_of_bind heq
  exact h a hx packets hf

theorem makesRequests_one (h : IsRequest p.frame) : MakesRequests (pure (some [p])) := by
  intro packets heq
  cases heq
  simpa using h

theorem makesRequests_none : MakesRequests (pure none) := by
  intro packets heq
  cases heq

end Commands

/-- The packets of a command line are requests. -/
theorem isRequest_of_parsed (junk : Nat → Nat → Buffer)
    (readEntireFile : Str → Option (List UInt8)) (input : Buffer) :
    MakesRequests (parseCommandToPackets junk readEntireFile input) := by
  have sample : ∀ {ty : PacketType}, ty.isAnswered = true → ty ≠ .reqSetSetting →
      MakesRequests (pure (some [PacketController.createSamplePacket (junk 0 0) ty])) :=
    fun answered setting => makesRequests_one (isRequest_createSamplePacket answered setting _)
  have path : ∀ {ty : PacketType} (off : Nat), ty.isAnswered = true → ty ≠ .reqSetSetting →
      MakesRequests (stringAt input off >>= fun text =>
        pure (some [createPathPacket ty sizeofPacketCurrentDirectory (junk 0 0) text])) :=
    fun off answered setting => makesRequests_bind fun _ _ =>
      makesRequests_one (isRequest_createPathPacket answered setting _ _)
  have twoPaths : ∀ {ty : PacketType}, ty.isAnswered = true → ty ≠ .reqSetSetting →
      MakesRequests (stringAt input 0 >>= fun text => twoTokens (strtok text).tail >>= fun paths =>
        pure (some [PacketController.createTwoPathsPacket ty (junk 0 0) paths.1 paths.2])) :=
    fun answered setting => makesRequests_bind fun _ _ => makesRequests_bind fun _ _ =>
      makesRequests_one (isRequest_createTwoPathsPacket answered setting _ _ _)
  -- What is left after the set command, which may leave its branch.
  have behindSet : MakesRequests (if startsWith input "login" then do
        let tokens ← twoTokens (strtok (← stringAt input 6))
        return some [PacketController.createLoginPacket (junk 0 0) tokens.1 tokens.2]
      else if startsWith input "upload" then do
        return some (← uploadPackets junk readEntireFile 0 (strtok (← stringAt input 7)))
      else if startsWith input "ls" then
        return some [PacketController.createLsPacket (junk 0 0)]
      else return none) := by
    apply makesRequests_ite
    · apply makesRequests_bind
      intro text _
      apply makesRequests_bind
      intro tokens _
      exact makesRequests_one (isRequest_createLoginPacket _ _ _)
    apply makesRequests_ite
    · apply makesRequests_bind
      intro text _
      apply makesRequests_bind
      rintro packets hpackets made ⟨⟩
      exact isRequest_uploadPackets hpackets
    exact makesRequests_ite (sample rfl (by decide)) makesRequests_none
  unfold parseCommandToPackets
  dsimp only
  apply makesRequests_ite (sample rfl (by decide))
  apply makesRequests_ite (sample rfl (by decide))
  apply makesRequests_ite
  · apply makesRequests_bind
    intro text _
    exact makesRequests_one (isRequest_setHeader _ rfl (by decide) (by decide))
  apply makesRequests_ite (path 3 rfl (by decide))
  apply makesRequests_ite (path 6 rfl (by decide))
  apply makesRequests_ite
  · apply makesRequests_bind
    intro text _
    apply makesRequests_bind
    intro packet hpacket
    exact makesRequests_one (isRequest_createCompressPacket hpacket)
  apply makesRequests_ite (path 3 rfl (by decide))
  apply makesRequests_ite (twoPaths rfl (by decide))
  apply makesRequests_ite (twoPaths rfl (by decide))
  apply makesRequests_ite makesRequests_none
  apply makesRequests_ite makesRequests_none
  iterate 6 apply makesRequests_ite (sample rfl (by decide))
  apply makesRequests_ite _ behindSet
  apply makesRequests_bind
  intro made hmade
  cases made with
  | none => exact behindSet
  | some packet =>
      refine makesRequests_one ?_
      unfold createSetSettingPacket at hmade
      split at hmade
      · obtain ⟨text, -, wrapped⟩ := exists_of_bind hmade
        exact isRequest_createSetSettingPacketWrapped wrapped
      · cases hmade

end ConcurrentTcp
