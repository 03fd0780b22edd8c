import ConcurrentTcp.Base.TwoRuns
import ConcurrentTcp.Client.CommandWords

/-!
Requests in two runs.

The memory of a packet that a command does not set may differ from run to run. What the
packet says is its command, its size, its strings up to their NUL, its numbers and its bytes
of a file. The requests of one argument say the same (`sameResult_request`), whatever was in
the memory: also where a name runs over the end of its field into another one.

The packet that ends a transfer has two forms. It is the last chunk made the end, or, of an
empty file, the start made the end; which one is known from the packet before it.
-/

namespace ConcurrentTcp

open Interaction

/-! ### Strings of two memories -/

/-- Both have the same string at `off`. -/
def SameString (p p' : Buffer) (off : Nat) : Prop :=
  ∃ len s, p.cString off len = some s ∧ p'.cString off len = some s

/-- They have it when they agree up to its NUL. -/
theorem sameString_iff {p p' : Buffer} {off : Nat} :
    SameString p p' off ↔ ∃ n, p (off + n) = 0 ∧ ∀ i ≤ n, p (off + i) = p' (off + i) := by
  constructor
  · rintro ⟨len, s, hs, hs'⟩
    have bytes := Buffer.read_of_cString hs
    have both := bytes.trans (Buffer.read_of_cString hs').symm
    refine ⟨s.length, ?_, fun i hi => ?_⟩
    · have last : (p.read off (s.length + 1))[s.length]? = (s ++ [0])[s.length]? := by rw [bytes]
      rw [Buffer.getElem?_read _ _ (Nat.lt_succ_self _)] at last
      simpa using last
    · have here : (p.read off (s.length + 1))[i]? = (p'.read off (s.length + 1))[i]? := by
        rw [both]
      rw [Buffer.getElem?_read _ _ (Nat.lt_succ_of_le hi),
        Buffer.getElem?_read _ _ (Nat.lt_succ_of_le hi)] at here
      exact Option.some.inj here
  · rintro ⟨n, hzero, hsame⟩
    obtain ⟨s, hs⟩ := Buffer.exists_cString hzero
    refine ⟨n + 1, s, hs, ?_⟩
    rw [← hs]
    refine Buffer.cString_congr fun i hi hlt => ?_
    have here := hsame (i - off) (by omega)
    rw [Nat.add_sub_cancel' hi] at here
    exact here.symm

/-- A byte that was the same, or is written, is the same. -/
theorem write_same {p p' : Buffer} {start i : Nat} {bytes : List UInt8}
    (h : p i = p' i ∨ (start ≤ i ∧ i < start + bytes.length)) :
    p.write start bytes i = p'.write start bytes i := by
  simp only [Buffer.write]
  split
  · rfl
  · rename_i houtside
    exact h.resolve_right houtside

theorem write_nul (p : Buffer) (start : Nat) (s : Str) :
    p.write start (s ++ [0]) (start + s.length) = 0 := by
  simp [Buffer.write]

namespace SameString

variable {p p' : Buffer} {off : Nat}

theorem head (h : SameString p p' off) : p off = p' off := by
  obtain ⟨n, -, hsame⟩ := sameString_iff.mp h
  exact hsame 0 (Nat.zero_le n)

/-- A string that was stored in both. -/
theorem stored (p p' : Buffer) (off : Nat) (s : Str) :
    SameString (p.write off (s ++ [0])) (p'.write off (s ++ [0])) off := by
  refine sameString_iff.mpr ⟨s.length, write_nul p off s, fun i hi => write_same (.inr ?_)⟩
  rw [List.length_append, List.length_singleton]
  omega

/-- Where another string is stored over its NUL, it goes on to that one's. -/
theorem write (h : SameString p p' off) (start : Nat) (s : Str) :
    SameString (p.write start (s ++ [0])) (p'.write start (s ++ [0])) off := by
  obtain ⟨n, hzero, hsame⟩ := sameString_iff.mp h
  refine sameString_iff.mpr ?_
  have hlength : (s ++ [0]).length = s.length + 1 := by simp
  by_cases hover : start ≤ off + n ∧ off + n ≤ start + s.length
  · refine ⟨start + s.length - off, ?_, fun i hi => write_same ?_⟩
    · rw [Nat.add_sub_cancel' (by omega)]
      exact write_nul p start s
    · rcases Nat.lt_or_ge n i with hlt | hge
      · exact .inr ⟨by omega, by omega⟩
      · exact .inl (hsame i hge)
  · refine ⟨n, ?_, fun i hi => write_same (.inl (hsame i hi))⟩
    simp only [Buffer.write]
    rw [if_neg (by omega)]
    exact hzero

/-- What is stored before it leaves it as it is. -/
theorem write_below (h : SameString p p' off) {start : Nat} {bytes bytes' : List UInt8}
    (hle : start + bytes.length ≤ off) (hle' : start + bytes'.length ≤ off) :
    SameString (p.write start bytes) (p'.write start bytes') off := by
  obtain ⟨n, hzero, hsame⟩ := sameString_iff.mp h
  refine sameString_iff.mpr ⟨n, ?_, fun i hi => ?_⟩
  · rw [Buffer.write_of_le _ _ _ (by omega)]
    exact hzero
  · rw [Buffer.write_of_le _ _ _ (by omega), Buffer.write_of_le _ _ _ (by omega)]
    exact hsame i hi

theorem setHeader (h : SameString p p' off) (hoff : 4 ≤ off) (ty : PacketType) (n : Nat) :
    SameString (p.setHeader ty n) (p'.setHeader ty n) off := by
  obtain ⟨len, s, hs, hs'⟩ := h
  exact ⟨len, s, by rwa [Buffer.cString_setHeader _ _ _ _ hoff],
    by rwa [Buffer.cString_setHeader _ _ _ _ hoff]⟩

end SameString

/-! ### The same packets -/

/-- The slot of a file name; the archive name is in the one behind the last. -/
def nameSlot (i : Nat) : Nat := 8 + maxFilenameLen * i

/-- Whether a transfer goes on behind a packet. -/
def underWay (p : Buffer) : Bool :=
  p.command = PacketType.reqFileTransferStart.toByte ∨
    p.command = PacketType.reqFileTransferChunk.toByte

/-- Where a packet has strings; `started` says that it goes on with a transfer. The end of
one that was not started is a start with its file name. -/
def stringOffsets (started : Bool) (p : Buffer) : PacketType → List Nat
  | .reqMkdir | .reqRemovePath | .reqChangeWorkingDirectory | .reqFileOpen => [4]
  | .reqMoveFile | .reqCopyFile => [4, 516]
  | .reqLogin => [4, 68]
  | .reqFileTransferStart => [20]
  | .reqFileTransferEnd => if started then [] else [20]
  | .reqCompress => nameSlot maxFiles :: (List.range (p 7).toNat).map nameSlot
  | _ => []

/-- Where it has numbers or the bytes of a file. The digest of a start is not set. -/
def byteOffsets (started : Bool) (p : Buffer) : PacketType → List Nat
  | .reqCompress => [4, 5, 6, 7]
  | .reqSetSetting => [5]
  | .reqFileTransferChunk => List.range' sizeofPacketHeader (p.totalSize - sizeofPacketHeader)
  | .reqFileTransferEnd =>
      if started then List.range' sizeofPacketHeader (p.totalSize - sizeofPacketHeader) else []
  | _ => []

/-- All that the packet says is the same; what was left in its memory may differ. -/
structure SamePacket (started : Bool) (p p' : Buffer) : Prop where
  command : p.command = p'.command
  totalSize : p.totalSize = p'.totalSize
  strings : ∀ ty, PacketType.ofByte? p.command = some ty →
    ∀ off ∈ stringOffsets started p ty, SameString p p' off
  bytes : ∀ ty, PacketType.ofByte? p.command = some ty →
    ∀ off ∈ byteOffsets started p ty, p off = p' off

/-- The packets of a command, one after the other. -/
inductive SamePackets : Bool → List Buffer → List Buffer → Prop where
  | nil {started : Bool} : SamePackets started [] []
  | cons {started : Bool} {p p' : Buffer} {rest rest' : List Buffer} : SamePacket started p p' →
      SamePackets (underWay p) rest rest' → SamePackets started (p :: rest) (p' :: rest')

/-- No packets, the same packets or the same fault. -/
def SameResult (x y : Except Fault (Option (List Buffer))) : Prop :=
  SameOutcome (Option.Rel (SamePackets false)) x y

/-- One packet each. -/
theorem SamePacket.one {p p' : Buffer} (h : SamePacket false p p') :
    Option.Rel (SamePackets false) (some [p]) (some [p']) :=
  .some (.cons h .nil)

theorem SamePackets.length_eq {started : Bool} {packets packets' : List Buffer}
    (h : SamePackets started packets packets') : packets.length = packets'.length := by
  induction h with
  | nil => rfl
  | cons _ _ ih => exact congrArg (· + 1) ih

/-- A packet of a known type. -/
theorem SamePacket.of_type {started : Bool} {p p' : Buffer} (ty : PacketType)
    (command : p.command = ty.toByte) (command' : p'.command = ty.toByte)
    (totalSize : p.totalSize = p'.totalSize)
    (strings : ∀ off ∈ stringOffsets started p ty, SameString p p' off)
    (bytes : ∀ off ∈ byteOffsets started p ty, p off = p' off) : SamePacket started p p' := by
  have htype : ∀ ty', PacketType.ofByte? p.command = some ty' → ty' = ty := by
    intro ty' h
    rw [command, PacketType.ofByte?_toByte] at h
    exact (Option.some.inj h).symm
  refine ⟨command.trans command'.symm, totalSize, fun ty' h => ?_, fun ty' h => ?_⟩
  · rw [htype ty' h]
    exact strings
  · rw [htype ty' h]
    exact bytes

/-! ### What is made of an argument -/

section Packets

variable (junk junk' : Buffer)

theorem samePacket_sample (ty : PacketType) (hstrings : ∀ p, stringOffsets false p ty = [])
    (hbytes : ∀ p, byteOffsets false p ty = []) :
    SamePacket false (PacketController.createSamplePacket junk ty)
      (PacketController.createSamplePacket junk' ty) := by
  refine .of_type ty (Buffer.command_setHeader ..) (Buffer.command_setHeader ..) ?_ ?_ ?_
  · simp [PacketController.createSamplePacket]
  · simp [hstrings]
  · simp [hbytes]

theorem samePacket_path (ty : PacketType) (size : Nat) (path : Str)
    (hstrings : ∀ p, stringOffsets false p ty = [4]) (hbytes : ∀ p, byteOffsets false p ty = []) :
    SamePacket false (createPathPacket ty size junk path)
      (createPathPacket ty size junk' path) := by
  refine .of_type ty (Buffer.command_setHeader ..) (Buffer.command_setHeader ..) ?_ ?_ ?_
  · simp [createPathPacket]
  · intro off hoff
    rw [hstrings, List.mem_singleton] at hoff
    subst hoff
    exact (SameString.stored _ _ 4 path).setHeader (Nat.le_refl 4) ty size
  · simp [hbytes]

theorem samePacket_twoPaths (ty : PacketType) (path1 path2 : Str)
    (hstrings : ∀ p, stringOffsets false p ty = [4, 516])
    (hbytes : ∀ p, byteOffsets false p ty = []) :
    SamePacket false (PacketController.createTwoPathsPacket ty junk path1 path2)
      (PacketController.createTwoPathsPacket ty junk' path1 path2) := by
  refine .of_type ty (Buffer.command_setHeader ..) (Buffer.command_setHeader ..) ?_ ?_ ?_
  · simp [PacketController.createTwoPathsPacket]
  · intro off hoff
    rw [hstrings, List.mem_cons, List.mem_singleton] at hoff
    rcases hoff with rfl | rfl
    · exact ((SameString.stored _ _ 4 path1).write 516 path2).setHeader (Nat.le_refl 4) ty _
    · exact (SameString.stored _ _ 516 path2).setHeader (by decide) ty _
  · simp [hbytes]

theorem samePacket_login (username password : Str) :
    SamePacket false (PacketController.createLoginPacket junk username password)
      (PacketController.createLoginPacket junk' username password) := by
  refine .of_type .reqLogin ?_ ?_ ?_ ?_ (by simp [byteOffsets])
  · simp [PacketController.createLoginPacket, Buffer.command_write]
  · simp [PacketController.createLoginPacket, Buffer.command_write]
  · simp [PacketController.createLoginPacket, Buffer.totalSize_write]
  · intro off hoff
    have hoffset : off = 4 ∨ off = 68 := by simpa [stringOffsets] using hoff
    rcases hoffset with rfl | rfl
    · exact (SameString.stored _ _ 4 username).write 68 password
    · exact SameString.stored _ _ 68 password

theorem sameOutcome_setSetting (value : Str) :
    SameOutcome (Option.Rel (SamePacket false))
      (PacketController.createSetSettingPacketWrapped junk value)
      (PacketController.createSetSettingPacketWrapped junk' value) := by
  unfold PacketController.createSetSettingPacketWrapped
  cases atoi value with
  | none => exact .error _
  | some parsed =>
      dsimp only
      split
      · exact .ok .none
      · refine .ok (.some (.of_type .reqSetSetting ?_ ?_ ?_ (by simp [stringOffsets]) ?_))
        · simp [Buffer.command_write]
        · simp [Buffer.command_write]
        · simp [Buffer.totalSize_write]
        · intro off hoff
          obtain rfl : off = 5 := by simpa [byteOffsets] using hoff
          exact write_same (.inr ⟨Nat.le_refl 5, Nat.lt_succ_self 5⟩)

/-! ### Compression -/

theorem copyFileNames_same {p p' : Buffer} {i : Nat} {paths : List Str}
    (archive : SameString p p' (nameSlot maxFiles))
    (names : ∀ j < i, SameString p p' (nameSlot j)) :
    SameOutcome (fun q q' => (∀ k < 8, q k = p k ∧ q' k = p' k) ∧
        SameString q q' (nameSlot maxFiles) ∧
        ∀ j < i + paths.length, SameString q q' (nameSlot j))
      (PacketController.copyFileNames p i paths) (PacketController.copyFileNames p' i paths) := by
  induction paths generalizing p p' i with
  | nil => exact .ok ⟨fun _ _ => ⟨rfl, rfl⟩, archive, names⟩
  | cons path rest ih =>
      rw [PacketController.copyFileNames, PacketController.copyFileNames]
      split
      · have stored : ∀ j < i + 1, SameString (p.write (nameSlot i) (path ++ [0]))
            (p'.write (nameSlot i) (path ++ [0])) (nameSlot j) := by
          intro j hj
          rcases Nat.lt_succ_iff_lt_or_eq.mp hj with hlt | rfl
          · exact (names j hlt).write (nameSlot i) path
          · exact .stored p p' (nameSlot j) path
        refine (ih (archive.write (nameSlot i) path) stored).mono ?_
        rintro q q' ⟨below, archive', names'⟩
        refine ⟨fun k hk => ?_, archive', fun j hj => names' j ?_⟩
        · have hslot : k < nameSlot i := Nat.lt_of_lt_of_le hk (Nat.le_add_right 8 _)
          obtain ⟨hq, hq'⟩ := below k hk
          rw [Buffer.write_of_lt _ _ _ hslot] at hq hq'
          exact ⟨hq, hq'⟩
        · rw [List.length_cons] at hj
          omega
      · exact .error _

/-- The packet before the file names are copied. -/
def beforeNames (junk : Buffer) (options : List UInt8) (count : UInt8) (archive : Str) : Buffer :=
  ((((junk.write 0 [0]).setHeader .reqCompress sizeofPacketCompress).write 4 options).write
    (nameSlot maxFiles) (archive ++ [0])).write 7 [count]

theorem beforeNames_same (options : List UInt8) (hoptions : options.length = 3) (count : UInt8)
    (archive : Str) {k : Nat} (hk : 4 ≤ k) (hk' : k < 8) :
    beforeNames junk options count archive k = beforeNames junk' options count archive k := by
  refine write_same ?_
  by_cases hcount : k = 7
  · subst hcount
    exact .inr ⟨Nat.le_refl 7, Nat.lt_succ_self 7⟩
  · exact .inl (write_same (.inl (write_same (.inr ⟨hk, by omega⟩))))

theorem command_beforeNames (options : List UInt8) (count : UInt8) (archive : Str) :
    (beforeNames junk options count archive).command = PacketType.reqCompress.toByte := by
  rw [beforeNames, Buffer.command_write _ (by decide), Buffer.command_write _ (by decide),
    Buffer.command_write _ (by decide), Buffer.command_setHeader]

theorem totalSize_beforeNames (options : List UInt8) (count : UInt8) (archive : Str) :
    (beforeNames junk options count archive).totalSize = sizeofPacketCompress % 2 ^ 16 := by
  rw [beforeNames, Buffer.totalSize_write _ (by decide), Buffer.totalSize_write _ (by decide),
    Buffer.totalSize_write _ (by decide), Buffer.totalSize_setHeader]

theorem count_beforeNames (options : List UInt8) (count : UInt8) (archive : Str) :
    beforeNames junk options count archive 7 = count := by
  simp [beforeNames, Buffer.write]

theorem sameOutcome_compress (format : Format) (level : Level) (all : Bool) (paths : List Str)
    (archive : Str) :
    SameOutcome (SamePacket false)
      (PacketController.createCompressPacket junk format level all paths archive)
      (PacketController.createCompressPacket junk' format level all paths archive) := by
  let options : List UInt8 := [format.toByte, level.toByte, if all then 1 else 0]
  let count := UInt8.ofNat paths.length
  have stored : SameString (beforeNames junk options count archive)
      (beforeNames junk' options count archive) (nameSlot maxFiles) := by
    have below : 7 + [count].length ≤ nameSlot maxFiles := by
      rw [List.length_singleton]
      decide
    exact (SameString.stored _ _ (nameSlot maxFiles) archive).write_below below below
  have copied := @copyFileNames_same _ _ 0 paths stored (by simp)
  refine copied.mono ?_
  rintro q q' ⟨below, archive', names⟩
  have front : ∀ (k : Nat), 4 ≤ k → k < 8 → q k = q' k := by
    intro k hk hk'
    rw [(below k hk').1, (below k hk').2]
    exact beforeNames_same junk junk' options rfl count archive hk hk'
  have command := command_beforeNames junk options count archive
  have command' := command_beforeNames junk' options count archive
  have size : q.totalSize = sizeofPacketCompress % 2 ^ 16 := by
    rw [Buffer.totalSize_congr (below 2 (by decide)).1 (below 3 (by decide)).1]
    exact totalSize_beforeNames junk options count archive
  have size' : q'.totalSize = sizeofPacketCompress % 2 ^ 16 := by
    rw [Buffer.totalSize_congr (below 2 (by decide)).2 (below 3 (by decide)).2]
    exact totalSize_beforeNames junk' options count archive
  have hcount : (q 7).toNat ≤ paths.length := by
    rw [(below 7 (by decide)).1, count_beforeNames, UInt8.toNat_ofNat']
    exact Nat.mod_le _ _
  refine .of_type .reqCompress ?_ ?_ ?_ ?_ ?_
  · exact (below 1 (by decide)).1.trans command
  · exact (below 1 (by decide)).2.trans command'
  · exact size.trans size'.symm
  · intro off hoff
    rcases List.mem_cons.mp hoff with rfl | hname
    · exact archive'
    · obtain ⟨i, hi, rfl⟩ := List.mem_map.mp hname
      refine names i ?_
      have hlt := List.mem_range.mp hi
      omega
  · intro off hoff
    have hoffset : 4 ≤ off ∧ off < 8 := by
      simp only [byteOffsets, List.mem_cons, List.not_mem_nil, or_false] at hoff
      omega
    exact front off hoffset.1 hoffset.2

/-! ### Uploads -/

theorem samePacket_start (path : Str) :
    SamePacket false (fileTransferStart junk path) (fileTransferStart junk' path) := by
  refine .of_type .reqFileTransferStart (Buffer.command_setHeader ..)
    (Buffer.command_setHeader ..) ?_ ?_ ?_
  · simp [fileTransferStart]
  · intro off hoff
    obtain rfl : off = 20 := by simpa [stringOffsets] using hoff
    exact (SameString.stored _ _ 20 path).setHeader (by decide) _ _
  · simp [byteOffsets]

/-- The start of an empty file, made the end, has its name. -/
theorem samePacket_endStart (path : Str) :
    SamePacket false (endTransfer (fileTransferStart junk path))
      (endTransfer (fileTransferStart junk' path)) := by
  refine .of_type .reqFileTransferEnd (command_endTransfer _) (command_endTransfer _) ?_ ?_ ?_
  · simp [fileTransferStart]
  · intro off hoff
    obtain rfl : off = 20 := by simpa [stringOffsets] using hoff
    have started := (SameString.stored junk junk' 20 path).setHeader (by decide)
      .reqFileTransferStart sizeofPacketTransferFileStart
    have below : 1 + [PacketType.reqFileTransferEnd.toByte].length ≤ 20 := by
      rw [List.length_singleton]
      decide
    exact started.write_below below below
  · simp [byteOffsets]

theorem command_fileTransferChunk (chunk : List UInt8) :
    (fileTransferChunk junk chunk).command = PacketType.reqFileTransferChunk.toByte := by
  rw [fileTransferChunk, Buffer.command_write _ (by decide), Buffer.command_setHeader]

/-- Behind its header a chunk has the bytes of the file, as far as its size goes. -/
theorem fileTransferChunk_same (chunk : List UInt8) {i : Nat} (hi : sizeofPacketHeader ≤ i)
    (hlt : i < sizeofPacketHeader + ((sizeofPacketHeader + chunk.length) % 2 ^ 16 -
      sizeofPacketHeader)) :
    fileTransferChunk junk chunk i = fileTransferChunk junk' chunk i := by
  have hmod := Nat.mod_le (sizeofPacketHeader + chunk.length) (2 ^ 16)
  simp only [sizeofPacketHeader] at hi hlt hmod
  exact write_same (.inr ⟨hi, by omega⟩)

theorem samePacket_chunk (started : Bool) (chunk : List UInt8) :
    SamePacket started (fileTransferChunk junk chunk) (fileTransferChunk junk' chunk) := by
  refine .of_type .reqFileTransferChunk (command_fileTransferChunk junk chunk)
    (command_fileTransferChunk junk' chunk) ?_ (by simp [stringOffsets]) ?_
  · rw [totalSize_fileTransferChunk, totalSize_fileTransferChunk]
  · intro off hoff
    simp only [byteOffsets, totalSize_fileTransferChunk, List.mem_range'_1] at hoff
    exact fileTransferChunk_same junk junk' chunk hoff.1 hoff.2

/-- The last chunk, made the end, has its bytes of the file. -/
theorem samePacket_endChunk (chunk : List UInt8) :
    SamePacket true (endTransfer (fileTransferChunk junk chunk))
      (endTransfer (fileTransferChunk junk' chunk)) := by
  refine .of_type .reqFileTransferEnd (command_endTransfer _) (command_endTransfer _) ?_
    (by simp [stringOffsets]) ?_
  · simp only [totalSize_endTransfer, totalSize_fileTransferChunk]
  · intro off hoff
    simp only [byteOffsets, if_true, totalSize_endTransfer, totalSize_fileTransferChunk,
      List.mem_range'_1] at hoff
    have behind : off ≠ 1 := by
      rintro rfl
      exact absurd hoff.1 (by decide)
    rw [endTransfer_apply behind, endTransfer_apply behind]
    exact fileTransferChunk_same junk junk' chunk hoff.1 hoff.2

theorem underWay_start (path : Str) : underWay (fileTransferStart junk path) = true := by
  have command : (fileTransferStart junk path).command =
      PacketType.reqFileTransferStart.toByte := Buffer.command_setHeader ..
  simp [underWay, command]

theorem underWay_chunk (chunk : List UInt8) : underWay (fileTransferChunk junk chunk) = true := by
  simp [underWay, command_fileTransferChunk]

theorem underWay_endTransfer (p : Buffer) : underWay (endTransfer p) = false := by
  rw [underWay, command_endTransfer]
  decide

end Packets

/-- `packets.back()` is made the end. -/
def endLast (packets : List Buffer) : List Buffer :=
  packets.dropLast ++ (packets.getLast?.map endTransfer).toList

theorem endLast_cons_cons (p q : Buffer) (rest : List Buffer) :
    endLast (p :: q :: rest) = p :: endLast (q :: rest) := by
  rw [endLast, endLast, List.dropLast_cons_cons, List.getLast?_cons_cons, List.cons_append]

/-- The packets of a transfer behind its start. -/
theorem samePackets_chunks (junk junk' : Nat → Buffer) {chunks : List (List UInt8)}
    (hne : chunks ≠ []) {later later' : List Buffer} (hlater : SamePackets false later later') :
    SamePackets true
      (endLast (chunks.mapIdx fun i chunk => fileTransferChunk (junk i) chunk) ++ later)
      (endLast (chunks.mapIdx fun i chunk => fileTransferChunk (junk' i) chunk) ++ later') := by
  induction chunks generalizing junk junk' with
  | nil => exact absurd rfl hne
  | cons chunk rest ih =>
      cases rest with
      | nil =>
          refine .cons (samePacket_endChunk (junk 0) (junk' 0) chunk) ?_
          rw [underWay_endTransfer]
          exact hlater
      | cons next rest =>
          have more := ih (fun i => junk (i + 1)) (fun i => junk' (i + 1)) (List.cons_ne_nil _ _)
          rw [List.mapIdx_cons, List.mapIdx_cons, List.mapIdx_cons, List.mapIdx_cons,
            endLast_cons_cons, endLast_cons_cons, List.cons_append, List.cons_append]
          rw [List.mapIdx_cons, List.mapIdx_cons] at more
          refine .cons (samePacket_chunk (junk 0) (junk' 0) true chunk) ?_
          rw [underWay_chunk]
          exact more

/-- The packets of a file, with those of the files behind it. -/
theorem samePackets_file (junk junk' : Nat → Buffer) (path : Str) (content : List UInt8)
    (size : Nat) {later later' : List Buffer} (hlater : SamePackets false later later') :
    SamePackets false (createFileTransferPackets junk path content size ++ later)
      (createFileTransferPackets junk' path content size ++ later') := by
  show SamePackets false (endLast (_ :: List.mapIdx _ _) ++ later)
    (endLast (_ :: List.mapIdx _ _) ++ later')
  cases hchunks : breakVectorInto size content with
  | nil =>
      refine .cons (samePacket_endStart (junk 0) (junk' 0) path) ?_
      rw [underWay_endTransfer]
      exact hlater
  | cons chunk rest =>
      have behind := samePackets_chunks (fun i => junk (i + 1)) (fun i => junk' (i + 1))
        (List.cons_ne_nil chunk rest) hlater
      rw [List.mapIdx_cons, List.mapIdx_cons] at behind ⊢
      rw [endLast_cons_cons, endLast_cons_cons]
      refine .cons (samePacket_start (junk 0) (junk' 0) path) ?_
      rw [underWay_start]
      exact behind

theorem sameOutcome_upload (junk junk' : Nat → Nat → Buffer)
    (readEntireFile : Str → Option (List UInt8)) (i : Nat) (paths : List Str) :
    SameOutcome (SamePackets false) (uploadPackets junk readEntireFile i paths)
      (uploadPackets junk' readEntireFile i paths) := by
  induction paths generalizing i with
  | nil => exact .ok .nil
  | cons path rest ih =>
      rw [uploadPackets, uploadPackets]
      cases readEntireFile path with
      | none => exact .error _
      | some content =>
          dsimp only
          split
          · have later := ih (i + 1)
            generalize uploadPackets junk readEntireFile (i + 1) rest = x at later
            generalize uploadPackets junk' readEntireFile (i + 1) rest = y at later
            cases later with
            | ok hrest => exact .ok (samePackets_file (junk i) (junk' i) path content _ hrest)
            | error fault => exact .error fault
          · exact .error _

/-- The requests of one argument are the same. -/
theorem sameResult_request (C : Command) (junk junk' : Nat → Nat → Buffer)
    (readEntireFile : Str → Option (List UInt8)) (text : Str) :
    SameResult (C.request junk readEntireFile text) (C.request junk' readEntireFile text) := by
  cases C with
  | download => exact .ok (samePacket_path _ _ .reqFileOpen _ text (fun _ => rfl) fun _ => rfl).one
  | rm => exact .ok (samePacket_path _ _ _ _ text (fun _ => rfl) fun _ => rfl).one
  | mkdir => exact .ok (samePacket_path _ _ _ _ text (fun _ => rfl) fun _ => rfl).one
  | cd => exact .ok (samePacket_path _ _ _ _ text (fun _ => rfl) fun _ => rfl).one
  | compress => exact (sameOutcome_compress _ _ _ _ _ _ _).map fun _ _ h => h.one
  | mv =>
      refine (SameOutcome.refl (twoTokens (strtok text))).map ?_
      rintro paths _ rfl
      exact (samePacket_twoPaths _ _ _ _ _ (fun _ => rfl) fun _ => rfl).one
  | cp =>
      refine (SameOutcome.refl (twoTokens (strtok text))).map ?_
      rintro paths _ rfl
      exact (samePacket_twoPaths _ _ _ _ _ (fun _ => rfl) fun _ => rfl).one
  | login =>
      refine (SameOutcome.refl (twoTokens (strtok text))).map ?_
      rintro tokens _ rfl
      exact (samePacket_login _ _ _ _).one
  | set =>
      refine (sameOutcome_setSetting _ _ text).map ?_
      intro x y hxy
      cases hxy with
      | none => exact .none
      | some h => exact h.one
  | upload =>
      refine (sameOutcome_upload junk junk' readEntireFile 0 (strtok text)).map ?_
      intro packets packets' h
      exact .some h
  | _ => exact .ok (samePacket_sample _ _ _ (fun _ => rfl) fun _ => rfl).one

end ConcurrentTcp
