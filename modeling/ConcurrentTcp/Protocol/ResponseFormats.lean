import ConcurrentTcp.Client.Reports
import ConcurrentTcp.Server.TransferCalls

/-!
Responses, from the builder of the server to the report of the client.

`Conveys` says that the client reads a response as a report, whatever its receive buffer held
before; the worker's response buffer is arbitrary too. There is one lemma for each builder.
-/

namespace ConcurrentTcp

open Interaction

/-- The client reads the first `n` bytes of this buffer as this report. -/
def Conveys (p : Buffer) (n : Nat) (report : Report) : Prop :=
  ∀ buf : Buffer, readReport (buf.write 0 (p.read 0 n)) = some report

section Formats

variable {p : Buffer} {s : Str}

theorem conveys_of_command {n : Nat} {ty : PacketType} {report : Report} (hn : 1 < n)
    (hcommand : p.command = ty.toByte)
    (h : ∀ buf : Buffer, (buf.write 0 (p.read 0 n)).command = ty.toByte →
      readReport (buf.write 0 (p.read 0 n)) = some report) : Conveys p n report :=
  fun buf => h buf ((command_received hn).trans hcommand)

/-- A response that is a header. -/
theorem conveys_sample (tls : Buffer) {answer : PacketType} (h : answer.isSaid = true) :
    Conveys (tls.setHeader answer sizeofSamplePacket) sizeofSamplePacket (.said answer) := by
  refine conveys_of_command (by decide) (Buffer.command_setHeader ..) fun buf hcommand => ?_
  unfold readReport
  rw [hcommand, PacketType.ofByte?_toByte]
  cases answer <;> first | rfl | cases h

theorem conveys_currentUser (tls : Buffer) (hs : 0 ∉ s) (hlen : s.length < 255) :
    Conveys (createCurrentUserPacket s tls) sizeofPacketCurrentUser (.currentUser s) := by
  have hcommand : (createCurrentUserPacket s tls).command = PacketType.respCurrentUser.toByte := by
    rw [createCurrentUserPacket, Buffer.command_write _ (by decide), Buffer.command_setHeader]
  refine conveys_of_command (by decide) hcommand fun buf hcommand => ?_
  have hstring : (createCurrentUserPacket s tls).cString 4 (sizeofPacketCurrentUser - 4) = some s :=
    Buffer.cString_mono (by decide) (cString_strncpy hs hlen)
  unfold readReport
  rw [hcommand, PacketType.ofByte?_toByte]
  dsimp only
  rw [printedString_received hstring (by decide)]
  rfl

theorem conveys_currentDir (tls : Buffer) (hs : 0 ∉ s) (hlen : s.length < 512) :
    Conveys (createCurrentDirPacket s tls) sizeofPacketCurrentDirectory (.currentDirectory s) := by
  refine conveys_of_command (by decide) (Buffer.command_setHeader ..) fun buf hcommand => ?_
  have hstring : (createCurrentDirPacket s tls).cString 4 (sizeofPacketCurrentDirectory - 4) =
      some s :=
    (Buffer.cString_setHeader _ _ _ _ (Nat.le_refl 4)).trans (cString_strncpy hs hlen)
  unfold readReport
  rw [hcommand, PacketType.ofByte?_toByte]
  dsimp only
  rw [printedString_received hstring (by decide)]
  rfl

theorem conveys_settings (g : GlobalState) (tls : Buffer) :
    Conveys (createSettingsRespPacket g tls) sizeofGetSettingsPacket
      (.settings g.compressionLevel) := by
  refine conveys_of_command (by decide) (Buffer.command_setHeader ..) fun buf hcommand => ?_
  unfold readReport
  rw [hcommand, PacketType.ofByte?_toByte]
  dsimp only
  rw [Buffer.write_read _ _ (by decide), createSettingsRespPacket,
    Buffer.setHeader_of_le _ _ _ (Nat.le_refl 4)]
  simp [Buffer.write]

theorem conveys_loggedIn (isAdmin : Bool) (tls : Buffer) :
    Conveys (createLoggedInPacket isAdmin tls) sizeofLoggedInPacket (.loggedIn isAdmin) := by
  have hcommand : (createLoggedInPacket isAdmin tls).command = PacketType.respLoggedIn.toByte := by
    rw [createLoggedInPacket, Buffer.command_write _ (by decide), Buffer.command_setHeader]
  refine conveys_of_command (by decide) hcommand fun buf hcommand => ?_
  unfold readReport
  rw [hcommand, PacketType.ofByte?_toByte]
  dsimp only
  rw [Buffer.write_read _ _ (by decide), createLoggedInPacket]
  cases isAdmin <;> simp [Buffer.write]

theorem conveys_chunkInfo (tls : Buffer) {chunks : Nat} (hs : 0 ∉ s)
    (hlen : s.length < maxFilenameLen) :
    Conveys (createChunkInfoPacket tls chunks s) sizeofPacketDownloadedFileInfo
      (.fileOpened (chunks % 2 ^ 64) s) := by
  have hcommand : (createChunkInfoPacket tls chunks s).command =
      PacketType.respFileOpened.toByte := by
    rw [createChunkInfoPacket, Buffer.command_write _ (by decide),
      Buffer.command_write _ (by decide), Buffer.command_setHeader]
  refine conveys_of_command (by decide) hcommand fun buf hcommand => ?_
  have hchunks : (createChunkInfoPacket tls chunks s).u64 8 = chunks % 2 ^ 64 := by
    rw [createChunkInfoPacket, ← Buffer.u64_write _ 8 chunks]
    exact Buffer.u64_congr fun _ _ hi => Buffer.write_of_lt _ _ _ hi
  have hname : PacketDownloadedFileInfo.decodeFileName
      (buf.write 0 ((createChunkInfoPacket tls chunks s).read 0 sizeofPacketDownloadedFileInfo)) =
        some s := by
    refine (Buffer.cString_congr fun _ _ hi => Buffer.write_read _ _ ?_).trans
      (Buffer.cString_write _ _ hs hlen)
    exact hi
  unfold readReport
  rw [hcommand, PacketType.ofByte?_toByte]
  dsimp only
  rw [hname, PacketDownloadedFileInfo.decodeChunks, u64_received (by decide), hchunks]
  rfl

/-- The counts in the buffer of `create_connections_info_packet`. -/
theorem conveys_connectionsInfo (tls : Buffer) (completed active pending : Nat) :
    Conveys ((((tls.setHeader .respConnectionsInfo sizeofPacketConnectionsInfo).write 24
      (le64 completed)).write 8 (le64 active)).write 16 (le64 pending)) sizeofPacketConnectionsInfo
        (.connectionsInfo (completed % 2 ^ 64) (active % 2 ^ 64) (pending % 2 ^ 64)) := by
  generalize hp : (((tls.setHeader .respConnectionsInfo sizeofPacketConnectionsInfo).write 24
    (le64 completed)).write 8 (le64 active)).write 16 (le64 pending) = p
  have hcommand : p.command = PacketType.respConnectionsInfo.toByte := by
    rw [← hp, Buffer.command_write _ (by decide), Buffer.command_write _ (by decide),
      Buffer.command_write _ (by decide), Buffer.command_setHeader]
  have hpending : p.u64 16 = pending % 2 ^ 64 := by
    rw [← hp]
    exact Buffer.u64_write ..
  have hactive : p.u64 8 = active % 2 ^ 64 := by
    rw [← hp, ← Buffer.u64_write _ 8 active]
    exact Buffer.u64_congr fun _ _ hi => Buffer.write_of_lt _ _ _ hi
  have hcompleted : p.u64 24 = completed % 2 ^ 64 := by
    rw [← hp, ← Buffer.u64_write _ 24 completed]
    refine Buffer.u64_congr fun _ hi _ => ?_
    rw [Buffer.write_of_le _ _ _ (by rwa [length_le64]),
      Buffer.write_of_le _ _ _ (by rw [length_le64]; omega)]
  refine conveys_of_command (by decide) hcommand fun buf hcommand => ?_
  unfold readReport
  rw [hcommand, PacketType.ofByte?_toByte]
  dsimp only
  rw [u64_received (by decide), u64_received (by decide), u64_received (by decide), hcompleted,
    hactive, hpending]

end Formats

/-! ### Directory listings -/

section Listings

variable {p q : Buffer} {count : Nat} {name : Str} {names : List Str}

theorem getD_strncpy (s : Str) (len j : Nat) :
    (strncpy s len).getD j 0 = if j < len then s.getD j 0 else 0 := by
  simp only [strncpy, List.getD_eq_getElem?_getD, List.getElem?_take, List.getElem?_append,
    List.getElem?_replicate]
  grind

theorem getD_cut (s : Str) (len j : Nat) :
    (s.take len ++ [0]).getD j 0 = if j < len then s.getD j 0 else 0 := by
  simp only [List.getD_eq_getElem?_getD, List.getElem?_take, List.getElem?_append]
  grind

/-- A name in its field: cut, and ended by the NUL that is stored last. -/
theorem cString_storedName (p : Buffer) (off : Nat) (hname : 0 ∉ name) :
    ((p.write off (strncpy name maxFilenameLen)).write (off + maxFilenameLen - 1) [0]).cString off
      maxFilenameLen = some (name.take (maxFilenameLen - 1)) := by
  have hcut : 0 ∉ name.take (maxFilenameLen - 1) := fun h => hname (List.mem_of_mem_take h)
  have hroom : (name.take (maxFilenameLen - 1)).length + 1 ≤ maxFilenameLen := by
    rw [List.length_take]
    simp only [maxFilenameLen]
    omega
  apply Buffer.cString_mono hroom
  rw [← Buffer.cString_write p off hcut (Nat.lt_succ_self _)]
  refine Buffer.cString_congr fun i hi hlt => ?_
  obtain ⟨j, rfl⟩ := Nat.exists_eq_add_of_le hi
  have hj : j < maxFilenameLen := by omega
  have hright : (p.write off (name.take (maxFilenameLen - 1) ++ [0])) (off + j) =
      (name.take (maxFilenameLen - 1) ++ [0]).getD j 0 := by
    simp only [Buffer.write, List.length_append, List.length_singleton]
    rw [if_pos (by omega), Nat.add_sub_cancel_left]
  rw [hright, getD_cut]
  by_cases hlast : j < maxFilenameLen - 1
  · rw [if_pos hlast, Buffer.write_of_lt _ _ _ (by omega)]
    simp only [Buffer.write, length_strncpy]
    rw [if_pos (by omega), Nat.add_sub_cancel_left, getD_strncpy, if_pos hj]
  · rw [if_neg hlast]
    simp only [Buffer.write, List.length_singleton]
    rw [if_pos (by omega), show off + j - (off + maxFilenameLen - 1) = 0 by omega]
    rfl

/-- The names are stored from `count` on. -/
theorem writeFileNames_of_lt (p : Buffer) (count : Nat) (names : List Str) {i : Nat}
    (h : i < 5 + maxFilenameLen * count) : (writeFileNames p count names).1 i = p i := by
  induction names generalizing p count with
  | nil => rfl
  | cons name rest ih =>
      unfold writeFileNames
      split
      · split
        · exact ih p count h
        · have hlast : i < 5 + maxFilenameLen * count + maxFilenameLen - 1 := by
            simp only [maxFilenameLen] at h ⊢
            omega
          rw [ih _ _ (by rw [Nat.mul_add]; omega), Buffer.write_of_lt _ _ _ hlast,
            Buffer.write_of_lt _ _ _ h]
      · rfl

/-- The names that are shown when there is room for `room` of them. -/
def shownFirst (room : Nat) (names : List Str) : List Str :=
  ((names.filter fun name => name ≠ ascii "." ∧ name ≠ ascii "..").take room).map
    (·.take (maxFilenameLen - 1))

/-- The client lists the names that were stored. -/
theorem listFiles_writeFileNames (hcount : count ≤ maxFiles)
    (terminated : ∀ name ∈ names, 0 ∉ name)
    (hq : ∀ i, 5 ≤ i → i < 5 + maxFilenameLen * maxFiles →
      q i = (writeFileNames p count names).1 i) :
    (writeFileNames p count names).2 = count + (shownFirst (maxFiles - count) names).length ∧
      listFiles q count (shownFirst (maxFiles - count) names).length =
        some (shownFirst (maxFiles - count) names) := by
  induction names generalizing p count with
  | nil => simp [writeFileNames, shownFirst, listFiles]
  | cons name rest ih =>
      obtain ⟨hname, hrest⟩ := List.forall_mem_cons.mp terminated
      unfold writeFileNames at hq ⊢
      by_cases hroom : count < maxFiles
      · rw [if_pos hroom] at hq ⊢
        by_cases hdot : name = ascii "." ∨ name = ascii ".."
        · rw [if_pos hdot] at hq ⊢
          have hshown : shownFirst (maxFiles - count) (name :: rest) =
              shownFirst (maxFiles - count) rest := by
            unfold shownFirst
            rw [List.filter_cons_of_neg (by rcases hdot with h | h <;> simp [h])]
          rw [hshown]
          exact ih hcount hrest hq
        · rw [if_neg hdot] at hq ⊢
          have hshown : shownFirst (maxFiles - count) (name :: rest) =
              name.take (maxFilenameLen - 1) :: shownFirst (maxFiles - (count + 1)) rest := by
            unfold shownFirst
            rw [List.filter_cons_of_pos (by simpa [not_or] using hdot),
              show maxFiles - count = maxFiles - (count + 1) + 1 by omega, List.take_succ_cons,
              List.map_cons]
          have hnext : count + 1 ≤ maxFiles := hroom
          obtain ⟨hnumber, hlist⟩ := ih hnext hrest hq
          rw [hshown]
          refine ⟨by rw [hnumber, List.length_cons]; omega, ?_⟩
          have hend : 5 + maxFilenameLen * (count + 1) ≤ 5 + maxFilenameLen * maxFiles :=
            Nat.add_le_add_left (Nat.mul_le_mul_left _ hnext) 5
          rw [Nat.mul_succ] at hend
          have hfirst : q.cString (5 + maxFilenameLen * count) maxFilenameLen =
              some (name.take (maxFilenameLen - 1)) := by
            rw [← cString_storedName p _ hname]
            refine Buffer.cString_congr fun i hi hlt => ?_
            rw [hq i (by omega) (by omega)]
            exact writeFileNames_of_lt _ _ _ (by rw [Nat.mul_succ]; omega)
          have hprinted : printedString q (5 + maxFilenameLen * count) =
              some (name.take (maxFilenameLen - 1)) := by
            refine Buffer.cString_mono ?_ hfirst
            have hall : 5 + maxFilenameLen * maxFiles ≤ uint16Max := by decide
            omega
          rw [List.length_cons, listFiles, hprinted, hlist]
          simp only [Option.bind_eq_bind, Option.bind_some]
      · rw [if_neg hroom]
        have hnone : maxFiles - count = 0 := by omega
        simp [hnone, shownFirst, listFiles]

theorem length_shownFirst (room : Nat) (names : List Str) :
    (shownFirst room names).length ≤ room := by
  unfold shownFirst
  rw [List.length_map, List.length_take]
  exact Nat.min_le_left _ _

/-- A buffer of a listing. -/
theorem conveys_listing {files : List Str} (hcommand : p.command = PacketType.respFileList.toByte)
    (hnumber : p 4 = UInt8.ofNat files.length) (hfew : files.length ≤ maxFiles)
    (hlist : ∀ q : Buffer, (∀ i, 5 ≤ i → i < 5 + maxFilenameLen * maxFiles → q i = p i) →
      listFiles q 0 files.length = some files) :
    Conveys p sizeofPacketFileList (.fileList files) := by
  refine conveys_of_command (by decide) hcommand fun buf hcommand => ?_
  have hall : 5 + maxFilenameLen * maxFiles ≤ sizeofPacketFileList := by decide
  have hfront : ∀ i < sizeofPacketFileList, (buf.write 0 (p.read 0 sizeofPacketFileList)) i = p i :=
    fun i hi => Buffer.write_read _ _ hi
  have hcount : (UInt8.ofNat files.length).toNat = files.length := by
    rw [UInt8.toNat_ofNat']
    apply Nat.mod_eq_of_lt
    simp only [maxFiles] at hfew
    omega
  unfold readReport
  rw [hcommand, PacketType.ofByte?_toByte]
  dsimp only
  rw [hfront 4 (by decide), hnumber, hcount,
    hlist _ fun i _ hi => hfront i (Nat.lt_of_lt_of_le hi hall)]
  rfl

/-- The buffer of `create_file_list_packet` for what `opendir` answered. -/
def fileListPacket (tls : Buffer) (entries : Option (List Str)) : Buffer :=
  (match entries with
    | none => tls.write 4 [0]
    | some names => (writeFileNames tls 0 names).1.write 4
        [UInt8.ofNat (writeFileNames tls 0 names).2]).setHeader .respFileList sizeofPacketFileList

/-- A directory that cannot be opened shows no files. -/
theorem conveys_fileList (tls : Buffer) {entries : Option (List Str)}
    (terminated : ∀ name ∈ entries.getD [], 0 ∉ name) :
    Conveys (fileListPacket tls entries) sizeofPacketFileList
      (.fileList (shownFirst maxFiles (entries.getD []))) := by
  have hcommand : (fileListPacket tls entries).command = PacketType.respFileList.toByte :=
    Buffer.command_setHeader ..
  have hstored : ∀ (b : Buffer) (byte : UInt8) (i : Nat), 5 ≤ i →
      ((b.write 4 [byte]).setHeader .respFileList sizeofPacketFileList) i = b i := by
    intro b byte i hi
    rw [Buffer.setHeader_of_le _ _ _ (by omega), Buffer.write_of_le _ _ _ (by simpa using hi)]
  have hbyte : ∀ (b : Buffer) (byte : UInt8),
      ((b.write 4 [byte]).setHeader .respFileList sizeofPacketFileList) 4 = byte := by
    intro b byte
    rw [Buffer.setHeader_of_le _ _ _ (Nat.le_refl 4)]
    simp [Buffer.write]
  cases entries with
  | none => exact conveys_listing hcommand (hbyte _ _) (Nat.zero_le _) fun q _ => rfl
  | some names =>
      obtain ⟨hnumber, -⟩ := listFiles_writeFileNames (p := tls) (Nat.zero_le _) terminated
        fun _ _ _ => rfl
      rw [Nat.zero_add] at hnumber
      refine conveys_listing hcommand ?_ (length_shownFirst _ _) fun q hq => ?_
      · exact (hbyte _ _).trans (congrArg UInt8.ofNat hnumber)
      · exact (listFiles_writeFileNames (p := tls) (Nat.zero_le _) terminated
          fun i hi hlt => (hq i hi hlt).trans (hstored _ _ i hi)).2

end Listings

/-! ### The state of the server -/

/-- The buffer of `create_server_status_packet`. -/
def serverStatusPacket (tls : Buffer) (cpuUsage : UInt8) (totalMemory freeMemory : UInt64)
    (uptimeSeconds : UInt64) : Buffer :=
  (((((tls.setHeader .respServerStatusResponse sizeofServerStatusPacket).write 24
    [cpuUsage]).write 8 (le64 totalMemory.toNat)).write 16 (le64 freeMemory.toNat))).write 32
      (le64 uptimeSeconds.toNat)

/-- The size of the response is printed, and the free memory is not. -/
theorem conveys_serverStatus (tls : Buffer) (cpuUsage : UInt8)
    (totalMemory freeMemory uptimeSeconds : UInt64) :
    Conveys (serverStatusPacket tls cpuUsage totalMemory freeMemory uptimeSeconds)
      sizeofServerStatusPacket
      (.serverStatus sizeofServerStatusPacket cpuUsage totalMemory.toNat uptimeSeconds.toNat) := by
  generalize hp : serverStatusPacket tls cpuUsage totalMemory freeMemory uptimeSeconds = p
  unfold serverStatusPacket at hp
  have hcommand : p.command = PacketType.respServerStatusResponse.toByte := by
    rw [← hp, Buffer.command_write _ (by decide), Buffer.command_write _ (by decide),
      Buffer.command_write _ (by decide), Buffer.command_write _ (by decide),
      Buffer.command_setHeader]
  have hsize : p.totalSize = sizeofServerStatusPacket := by
    rw [← hp, Buffer.totalSize_write _ (by decide), Buffer.totalSize_write _ (by decide),
      Buffer.totalSize_write _ (by decide), Buffer.totalSize_write _ (by decide),
      Buffer.totalSize_setHeader]
    rfl
  have hcpu : p 24 = cpuUsage := by
    rw [← hp, Buffer.write_of_lt _ _ _ (by decide),
      Buffer.write_of_le _ _ _ (by rw [length_le64]),
      Buffer.write_of_le _ _ _ (by rw [length_le64]; decide)]
    simp [Buffer.write]
  have huptime : p.u64 32 = uptimeSeconds.toNat := by
    rw [← hp, Buffer.u64_write]
    exact Nat.mod_eq_of_lt uptimeSeconds.toNat_lt
  have hmemory : p.u64 8 = totalMemory.toNat := by
    have hall := Nat.mod_eq_of_lt totalMemory.toNat_lt
    rw [← hall, ← Buffer.u64_write _ 8 totalMemory.toNat, ← hp]
    refine Buffer.u64_congr fun _ _ hi => ?_
    rw [Buffer.write_of_lt _ _ _ (by omega), Buffer.write_of_lt _ _ _ (by omega)]
  refine conveys_of_command (by decide) hcommand fun buf hcommand => ?_
  unfold readReport
  rw [hcommand, PacketType.ofByte?_toByte]
  dsimp only
  rw [totalSize_received (by decide), u64_received (by decide), u64_received (by decide),
    Buffer.write_read _ _ (by decide), hsize, hcpu, huptime, hmemory]

end ConcurrentTcp
