import ConcurrentTcp.Client.TypedRequests

/-!
The compress command from the line to the handler.

The client takes the options out of the words of the line, and stores the rest in the file
names of a `PacketCompress`. Behind the 128 names is the archive name, and behind that the
structure ends: `compress_line_iff` holds while the names stay before it.
-/

namespace ConcurrentTcp

/-! ### Lines -/

/-- `level_to_string` -/
def Level.text : Level → Str
  | fastest => ascii "FASTEST"
  | fast => ascii "FAST"
  | normal => ascii "NORMAL"
  | good => ascii "GOOD"
  | best => ascii "BEST"

/-- `format_to_string` -/
def Format.text : Format → Str
  | zstd => ascii "ZSTD"
  | gzip => ascii "GZIP"
  | xz => ascii "XZ"
  | lzma => ascii "LZMA"
  | lz4 => ascii "LZ4"
  | zip => ascii "ZIP"

theorem levelOf_text (l : Level) : levelOf l.text = l := by
  cases l <;> decide

theorem formatOf_text (f : Format) : formatOf f.text = f := by
  cases f <;> decide

/-- What stands behind the archive name, in any order. -/
inductive CompressItem where
  | path (word : Str)
  | level (level : Level)
  | format (format : Format)
  | all
deriving DecidableEq, Repr

namespace CompressItem

def words : CompressItem → List Str
  | path word => [word]
  | level l => [ascii "--level", l.text]
  | format f => [ascii "--format", f.text]
  | all => [ascii "*"]

def path? : CompressItem → Option Str
  | path word => some word
  | _ => none

/-- The level after an item. -/
def levelAfter (now : Level) : CompressItem → Level
  | level l => l
  | _ => now

def formatAfter (now : Format) : CompressItem → Format
  | format f => f
  | _ => now

end CompressItem

/-- The words that are no paths. -/
def optionWords : List Str := [ascii "--level", ascii "--format", ascii "*"]

/-- What the user asks for. Level and format are those that are given last. -/
structure CompressRequest where
  archive : Str
  items : List CompressItem

namespace CompressRequest

def paths (request : CompressRequest) : List Str := request.items.filterMap CompressItem.path?

def level (request : CompressRequest) : Level :=
  request.items.foldl CompressItem.levelAfter .normal

def format (request : CompressRequest) : Format :=
  request.items.foldl CompressItem.formatAfter .zstd

def all (request : CompressRequest) : Bool := request.items.any (· = .all)

/-- The line that asks for it. -/
structure Typed (request : CompressRequest) (line : Str) : Prop where
  words : ∃ rest, line = ascii "compress " ++ rest ∧
    streamWords rest = request.archive :: request.items.flatMap CompressItem.words
  short : ∀ path ∈ request.paths, path.length < maxFilenameLen
  noOption : ∀ path ∈ request.paths, path ∉ optionWords

/-- What the handler reads of the packet. -/
structure Received (request : CompressRequest) (b : Buffer) : Prop where
  command : b.command = PacketType.reqCompress.toByte
  archive : PacketCompress.archiveName b = some request.archive
  format : PacketCompress.format b = some request.format
  level : PacketCompress.compressionLevel b = some request.level
  all : PacketCompress.compressAll b = request.all
  count : PacketCompress.fileCount b = request.paths.length
  names : ∀ i path, request.paths[i]? = some path → PacketCompress.fileName b i = some path

/-- The client refuses, or the server gets the request. -/
def Decodes (request : CompressRequest) (c : ConnId)
    (result : Except Fault (Option (List Buffer))) : Prop :=
  result = .ok none ∨ ∃ packet, result = .ok (some [packet]) ∧
    request.Received (ConnectionBuffer.buffer ⟨c, packet.frame⟩)

/-- All names are before the archive name, or the one that takes its place is the same. -/
def Fits (request : CompressRequest) : Prop :=
  request.archive.length < maxFilenameLen ∧ request.paths.length ≤ maxFiles ∨
    request.paths.length = maxFiles + 1 ∧ request.paths[maxFiles]? = some request.archive

end CompressRequest

/-! ### Parsing -/

theorem compressWords_all (options : CompressOptions) (rest : List Str) :
    compressWords options (ascii "*" :: rest) =
      compressWords { options with compressAll := true } rest := by
  have hlevel : ascii "*" ≠ ascii "--level" := by decide
  have hformat : ascii "*" ≠ ascii "--format" := by decide
  rw [compressWords.eq_def]
  simp only [if_neg hlevel, if_neg hformat, if_true]

theorem compressWords_path (options : CompressOptions) {word : Str} (hword : word ∉ optionWords)
    (rest : List Str) :
    compressWords options (word :: rest) =
      compressWords { options with paths := options.paths ++ [word] } rest := by
  simp only [optionWords, List.mem_cons, List.not_mem_nil, or_false, not_or] at hword
  rw [compressWords.eq_def]
  simp only [if_neg hword.1, if_neg hword.2.1, if_neg hword.2.2]

/-- The loop takes out of the words what was written. -/
theorem compressWords_items {items : List CompressItem}
    (h : ∀ path ∈ items.filterMap CompressItem.path?, path ∉ optionWords)
    (options : CompressOptions) :
    let result := compressWords options (items.flatMap CompressItem.words)
    levelOf result.level = items.foldl CompressItem.levelAfter (levelOf options.level) ∧
      formatOf result.format = items.foldl CompressItem.formatAfter (formatOf options.format) ∧
      result.compressAll = (options.compressAll || items.any (· = .all)) ∧
      result.paths = options.paths ++ items.filterMap CompressItem.path? := by
  induction items generalizing options with
  | nil => simp [compressWords]
  | cons item rest ih =>
      rw [List.flatMap_cons]
      cases item with
      | path word =>
          simp only [List.filterMap_cons, CompressItem.path?] at h
          obtain ⟨hword, hrest⟩ := List.forall_mem_cons.mp h
          have later := ih hrest { options with paths := options.paths ++ [word] }
          rw [CompressItem.words, List.singleton_append, compressWords_path options hword]
          simpa [CompressItem.path?, CompressItem.levelAfter, CompressItem.formatAfter] using later
      | level l =>
          have hpaths : (CompressItem.level l :: rest).filterMap CompressItem.path? =
              rest.filterMap CompressItem.path? := rfl
          have later := ih h { options with level := l.text }
          rw [levelOf_text] at later
          rw [hpaths]
          simpa [CompressItem.words, compressWords, CompressItem.levelAfter,
            CompressItem.formatAfter] using later
      | format f =>
          have hpaths : (CompressItem.format f :: rest).filterMap CompressItem.path? =
              rest.filterMap CompressItem.path? := rfl
          have later := ih h { options with format := f.text }
          have hother : ascii "--format" ≠ ascii "--level" := by decide
          rw [formatOf_text] at later
          rw [hpaths]
          simpa [CompressItem.words, compressWords, hother, CompressItem.levelAfter,
            CompressItem.formatAfter] using later
      | all =>
          have hpaths : (CompressItem.all :: rest).filterMap CompressItem.path? =
              rest.filterMap CompressItem.path? := rfl
          have later := ih h { options with compressAll := true }
          rw [CompressItem.words, List.singleton_append, compressWords_all, hpaths]
          simpa [CompressItem.levelAfter, CompressItem.formatAfter] using later

section Line

variable {junk : Nat → Nat → Buffer} {readEntireFile : Str → Option (List UInt8)}
  {input : Buffer} {line : Str} {request : CompressRequest}

theorem parse_compress {rest : Str} (h : HoldsLine input (ascii "compress " ++ rest)) :
    parseCommandToPackets junk readEntireFile input =
      (handleCompressCommand (junk 0 0) rest).map fun packet => some [packet] := by
  have others : ∀ word ∈ ["status", "cwd", "download", "rm", "mkdir"],
      startsWith input word = false := h.startsWith_front (by decide)
  have word : startsWith input "compress" = true := h.startsWith_word (by decide) (by decide)
  have argument : stringAt input 9 = .ok rest := h.argument
  simp only [List.forall_mem_cons] at others
  cases hresult : handleCompressCommand (junk 0 0) rest with
  | ok packet =>
      simp [parseCommandToPackets, others, word, argument, hresult, bind, Except.bind, pure,
        Except.pure, Except.map]
  | error fault =>
      simp [parseCommandToPackets, others, word, argument, hresult, bind, Except.bind, Except.map]

/-- The packet that a line asks for. -/
theorem parse_compress_typed (h : HoldsLine input line) (typed : request.Typed line) :
    parseCommandToPackets junk readEntireFile input =
      (PacketController.createCompressPacket (junk 0 0) request.format request.level request.all
        request.paths request.archive).map fun packet => some [packet] := by
  obtain ⟨⟨rest, rfl, hwords⟩, -, hoption⟩ := typed
  obtain ⟨hlevel, hformat, hall, hpaths⟩ := compressWords_items hoption
    { level := [], format := [], compressAll := false, paths := [] }
  rw [parse_compress h, handleCompressCommand, hwords]
  simp only [List.headD_cons, List.tail_cons]
  rw [hlevel, hformat, hall, hpaths]
  rfl

/-- What is typed has no NUL. -/
theorem CompressRequest.Typed.noNul (typed : request.Typed line) (hline : 0 ∉ line) :
    0 ∉ request.archive ∧ ∀ path ∈ request.paths, 0 ∉ path := by
  obtain ⟨⟨rest, rfl, hwords⟩, -, -⟩ := typed
  have word : ∀ w ∈ streamWords rest, 0 ∉ w := by
    intro w hw hzero
    have hmem := mem_of_mem_splitOnP (List.mem_filter.mp hw).1 hzero
    exact hline (List.mem_append_right _ hmem)
  rw [hwords] at word
  obtain ⟨harchive, hitems⟩ := List.forall_mem_cons.mp word
  refine ⟨harchive, fun path hpath => hitems path ?_⟩
  obtain ⟨item, hitem, hitemPath⟩ := List.mem_filterMap.mp hpath
  refine List.mem_flatMap.mpr ⟨item, hitem, ?_⟩
  cases item with
  | path word =>
      cases hitemPath
      exact List.mem_singleton_self _
  | level l => cases hitemPath
  | format f => cases hitemPath
  | all => cases hitemPath

end Line

/-! ### The packet -/

section Packet

variable {p b junk : Buffer} {i : Nat} {paths : List Str}

/-- The names are stored from the first slot on. -/
theorem copyFileNames_below (h : PacketController.copyFileNames p i paths = .ok b) :
    ∀ k < 8 + maxFilenameLen * i, b k = p k := by
  induction paths generalizing p i with
  | nil =>
      cases h
      exact fun _ _ => rfl
  | cons path rest ih =>
      rw [PacketController.copyFileNames] at h
      split at h
      · intro k hk
        rw [ih h k (by rw [Nat.mul_add]; omega), Buffer.write_of_lt _ _ _ hk]
      · cases h

/-- Names that are shorter than a slot stay in their slots, the last of which may be the one
of the archive name. -/
theorem copyFileNames_short (hshort : ∀ path ∈ paths, path.length < maxFilenameLen)
    (hzero : ∀ path ∈ paths, 0 ∉ path) (p : Buffer) (i : Nat)
    (hroom : i + paths.length ≤ maxFiles + 1) :
    ∃ b, PacketController.copyFileNames p i paths = .ok b ∧
      (∀ k, 8 + maxFilenameLen * (i + paths.length) ≤ k → b k = p k) ∧
      ∀ j path, paths[j]? = some path →
        b.cString (8 + maxFilenameLen * (i + j)) maxFilenameLen = some path := by
  induction paths generalizing p i with
  | nil => exact ⟨p, rfl, fun _ _ => rfl, nofun⟩
  | cons path rest ih =>
      obtain ⟨hpath, hrest⟩ := List.forall_mem_cons.mp hshort
      obtain ⟨hpathZero, hrestZero⟩ := List.forall_mem_cons.mp hzero
      rw [List.length_cons] at hroom
      have hstart : 8 + maxFilenameLen * (i + 1) = 8 + maxFilenameLen * i + maxFilenameLen := by
        rw [Nat.mul_add]
        omega
      obtain ⟨b, hcopy, habove, hslots⟩ := ih hrest hrestZero
        (p.write (8 + maxFilenameLen * i) (path ++ [0])) (i + 1) (by omega)
      have hinside : 8 + maxFilenameLen * i + path.length < uint16Max := by
        simp only [maxFilenameLen, maxFiles, uint16Max] at hpath hroom ⊢
        omega
      refine ⟨b, ?_, ?_, ?_⟩
      · rw [PacketController.copyFileNames, if_pos hinside, hcopy]
      · intro k hk
        have hend : 8 + maxFilenameLen * (i + 1 + rest.length) ≤ k := by
          rwa [List.length_cons, Nat.add_comm rest.length, ← Nat.add_assoc] at hk
        have hpast : 8 + maxFilenameLen * i + (path ++ [0]).length ≤ k := by
          rw [List.length_append, List.length_singleton]
          simp only [maxFilenameLen] at hpath hend ⊢
          omega
        rw [habove k hend, Buffer.write_of_le _ _ _ hpast]
      · intro j name hname
        cases j with
        | zero =>
            cases hname
            rw [← Buffer.cString_write p (8 + maxFilenameLen * i) hpathZero hpath]
            refine Buffer.cString_congr fun k _ hk => ?_
            exact copyFileNames_below hcopy k (by rwa [hstart])
        | succ j =>
            have hslot := hslots j name hname
            rwa [Nat.add_assoc, Nat.add_comm 1 j] at hslot

/-- The packet before the file names. -/
def compressBase (junk : Buffer) (request : CompressRequest) : Buffer :=
  ((((junk.write 0 [0]).setHeader .reqCompress sizeofPacketCompress).write 4
    [request.format.toByte, request.level.toByte, if request.all then 1 else 0]).write
      (8 + maxFilenameLen * maxFiles) (request.archive ++ [0])).write 7
        [UInt8.ofNat request.paths.length]

variable {request : CompressRequest}

/-- Header, options and number of the files are as they were set. -/
theorem compressBase_front (h : PacketController.copyFileNames (compressBase junk request) 0
      request.paths = .ok b) :
    b.command = PacketType.reqCompress.toByte ∧ b.totalSize = sizeofPacketCompress ∧
      PacketCompress.format b = some request.format ∧
      PacketCompress.compressionLevel b = some request.level ∧
      PacketCompress.compressAll b = request.all ∧
      PacketCompress.fileCount b = request.paths.length % 256 := by
  have hbyte : ∀ k < 8, b k = compressBase junk request k := copyFileNames_below h
  have hcommand : (compressBase junk request).command = PacketType.reqCompress.toByte := by
    rw [compressBase, Buffer.command_write _ (by decide), Buffer.command_write _ (by decide),
      Buffer.command_write _ (by decide), Buffer.command_setHeader]
  have hsize : (compressBase junk request).totalSize = sizeofPacketCompress := by
    rw [compressBase, Buffer.totalSize_write _ (by decide), Buffer.totalSize_write _ (by decide),
      Buffer.totalSize_write _ (by decide), Buffer.totalSize_setHeader]
    rfl
  refine ⟨(hbyte 1 (by decide)).trans hcommand, ?_, ?_, ?_, ?_, ?_⟩
  · rw [← hsize]
    exact Buffer.u16_congr fun k _ hk => hbyte k (by omega)
  · have hstored : compressBase junk request 4 = request.format.toByte := by
      simp [compressBase, Buffer.write, maxFilenameLen, maxFiles]
    rw [PacketCompress.format, hbyte 4 (by decide), hstored]
    cases request.format <;> rfl
  · have hstored : compressBase junk request 5 = request.level.toByte := by
      simp [compressBase, Buffer.write, maxFilenameLen, maxFiles]
    rw [PacketCompress.compressionLevel, hbyte 5 (by decide), hstored]
    cases request.level <;> rfl
  · have hstored : compressBase junk request 6 = if request.all then 1 else 0 := by
      simp [compressBase, Buffer.write, maxFilenameLen, maxFiles]
    rw [PacketCompress.compressAll, hbyte 6 (by decide), hstored]
    cases request.all <;> rfl
  · have hstored : compressBase junk request 7 = UInt8.ofNat request.paths.length := by
      simp [compressBase, Buffer.write]
    rw [PacketCompress.fileCount, hbyte 7 (by decide), hstored]
    exact UInt8.toNat_ofNat

/-- The archive name, in the last slot of the structure. -/
theorem cString_compressBase_iff (hzero : 0 ∉ request.archive) :
    (compressBase junk request).cString (8 + maxFilenameLen * maxFiles) maxFilenameLen =
        some request.archive ↔ request.archive.length < maxFilenameLen := by
  have hcount : (compressBase junk request).cString (8 + maxFilenameLen * maxFiles) maxFilenameLen =
      (((((junk.write 0 [0]).setHeader .reqCompress sizeofPacketCompress).write 4
        [request.format.toByte, request.level.toByte, if request.all then 1 else 0]).write
          (8 + maxFilenameLen * maxFiles) (request.archive ++ [0])).cString
            (8 + maxFilenameLen * maxFiles) maxFilenameLen) :=
    Buffer.cString_congr fun k hk _ => by
      rw [compressBase, Buffer.write_of_le _ _ _ (by rw [List.length_singleton]; omega)]
  rw [hcount, Buffer.cString_write_iff _ _ hzero]

theorem fileName_outside {i : Nat} (hi : maxFiles < i) (b : Buffer) :
    PacketCompress.fileName b i = none := by
  have hroom : sizeofPacketCompress - (8 + maxFilenameLen * i) = 0 := by
    simp only [sizeofPacketCompress, maxFilenameLen, maxFiles] at hi ⊢
    omega
  rw [PacketCompress.fileName, hroom]
  rfl

/-- A name in its slot is what the handler reads there. -/
theorem fileName_of_slot {i : Nat} {name : Str} (hi : i ≤ maxFiles)
    (h : b.cString (8 + maxFilenameLen * i) maxFilenameLen = some name) :
    PacketCompress.fileName b i = some name := by
  refine Buffer.cString_mono ?_ h
  simp only [sizeofPacketCompress, maxFilenameLen, maxFiles] at hi ⊢
  omega

/-- Header, options and names are all that is read. -/
theorem CompressRequest.Received.congr {b' : Buffer} (h : request.Received b)
    (hbyte : ∀ i < 8, b i = b' i)
    (hname : ∀ i, PacketCompress.fileName b i = PacketCompress.fileName b' i) :
    request.Received b' where
  command := by rw [← h.command, Buffer.command, Buffer.command, hbyte 1 (by decide)]
  archive := (hname maxFiles).symm.trans h.archive
  format := by rw [← h.format, PacketCompress.format, PacketCompress.format, hbyte 4 (by decide)]
  level := by
    rw [← h.level, PacketCompress.compressionLevel, PacketCompress.compressionLevel,
      hbyte 5 (by decide)]
  all := by
    rw [← h.all, PacketCompress.compressAll, PacketCompress.compressAll, hbyte 6 (by decide)]
  count := by
    rw [← h.count, PacketCompress.fileCount, PacketCompress.fileCount, hbyte 7 (by decide)]
  names := fun i path hpath => (hname i).symm.trans (h.names i path hpath)

/-- The whole structure arrives. -/
theorem received_frame_iff (c : ConnId) (hsize : b.totalSize = sizeofPacketCompress) :
    request.Received (ConnectionBuffer.buffer ⟨c, b.frame⟩) ↔ request.Received b := by
  have hbyte : ∀ i < 8, ConnectionBuffer.buffer ⟨c, b.frame⟩ i = b i := by
    intro i hi
    refine buffer_frame ?_
    rw [hsize, sizeofPacketCompress]
    omega
  have hname : ∀ i, PacketCompress.fileName (ConnectionBuffer.buffer ⟨c, b.frame⟩) i =
      PacketCompress.fileName b i := by
    intro i
    by_cases hi : i ≤ maxFiles
    · refine cString_frame ?_
      rw [hsize]
      simp only [sizeofPacketCompress, maxFilenameLen, maxFiles] at hi ⊢
      omega
    · rw [fileName_outside (Nat.lt_of_not_le hi), fileName_outside (Nat.lt_of_not_le hi)]
  exact ⟨fun h => h.congr hbyte hname,
    fun h => h.congr (fun i hi => (hbyte i hi).symm) fun i => (hname i).symm⟩

/-- What names that stay in the structure leave of a packet, and what the handler reads. -/
theorem copyFileNames_stored (hshort : ∀ path ∈ paths, path.length < maxFilenameLen)
    (hzero : ∀ path ∈ paths, 0 ∉ path) (hroom : paths.length ≤ maxFiles + 1)
    (h : PacketController.copyFileNames p 0 paths = .ok b) :
    (∀ k, 8 + maxFilenameLen * paths.length ≤ k → b k = p k) ∧
      ∀ i path, paths[i]? = some path → PacketCompress.fileName b i = some path := by
  obtain ⟨b', hcopy, habove, hslots⟩ := copyFileNames_short hshort hzero p 0 (by omega)
  obtain rfl : b' = b := by
    rw [hcopy] at h
    exact Except.ok.inj h
  rw [Nat.zero_add] at habove
  refine ⟨habove, fun i path hpath => ?_⟩
  obtain ⟨hi, -⟩ := List.getElem?_eq_some_iff.mp hpath
  have hslot := hslots i path hpath
  rw [Nat.zero_add] at hslot
  exact fileName_of_slot (by omega) hslot

section Names

variable (hshort : ∀ path ∈ request.paths, path.length < maxFilenameLen)
  (hzero : ∀ path ∈ request.paths, 0 ∉ path)
  (h : PacketController.copyFileNames (compressBase junk request) 0 request.paths = .ok b)

include hshort hzero h

/-- Up to one name too many, all but the archive name arrives. -/
theorem received_iff_archiveName (hroom : request.paths.length ≤ maxFiles + 1) :
    request.Received b ↔ PacketCompress.archiveName b = some request.archive := by
  obtain ⟨hcommand, -, hformat, hlevel, hall, hcount⟩ := compressBase_front h
  obtain ⟨-, hnames⟩ := copyFileNames_stored hshort hzero hroom h
  have hcount' : PacketCompress.fileCount b = request.paths.length := by
    rw [hcount]
    refine Nat.mod_eq_of_lt ?_
    simp only [maxFiles] at hroom
    omega
  exact ⟨fun received => received.archive,
    fun harchive => ⟨hcommand, harchive, hformat, hlevel, hall, hcount', hnames⟩⟩

/-- The slot of the archive name is as it was. -/
theorem archiveName_kept (hfew : request.paths.length ≤ maxFiles) :
    PacketCompress.archiveName b =
      (compressBase junk request).cString (8 + maxFilenameLen * maxFiles) maxFilenameLen := by
  obtain ⟨habove, -⟩ := copyFileNames_stored hshort hzero (Nat.le_succ_of_le hfew) h
  refine Buffer.cString_congr fun k hk _ => habove k (Nat.le_trans ?_ hk)
  exact Nat.add_le_add_left (Nat.mul_le_mul_left _ hfew) 8

/-- The last name took the slot. -/
theorem archiveName_taken (hlength : request.paths.length = maxFiles + 1) :
    PacketCompress.archiveName b = request.paths[maxFiles]? := by
  obtain ⟨-, hnames⟩ := copyFileNames_stored hshort hzero (Nat.le_of_eq hlength) h
  obtain ⟨path, hpath⟩ : ∃ path, request.paths[maxFiles]? = some path :=
    ⟨_, List.getElem?_eq_getElem (by omega)⟩
  exact (hnames maxFiles path hpath).trans hpath.symm

end Names

/-- A name would be behind the structure. -/
theorem not_received_of_many (hmany : maxFiles + 1 < request.paths.length) :
    ¬ request.Received b := by
  intro received
  obtain ⟨path, hpath⟩ : ∃ path, request.paths[maxFiles + 1]? = some path :=
    ⟨_, List.getElem?_eq_getElem hmany⟩
  have hname := received.names (maxFiles + 1) path hpath
  rw [fileName_outside (Nat.lt_succ_self maxFiles)] at hname
  cases hname

/-- The handler gets the request exactly when the names stay before the archive name. -/
theorem received_iff (hshort : ∀ path ∈ request.paths, path.length < maxFilenameLen)
    (harchive : 0 ∉ request.archive) (hzero : ∀ path ∈ request.paths, 0 ∉ path)
    (h : PacketController.copyFileNames (compressBase junk request) 0 request.paths = .ok b) :
    request.Received b ↔ request.Fits := by
  rw [CompressRequest.Fits]
  rcases Nat.lt_trichotomy request.paths.length (maxFiles + 1) with hfew | hlength | hmany
  · have hfew : request.paths.length ≤ maxFiles := Nat.le_of_lt_succ hfew
    rw [received_iff_archiveName hshort hzero h (Nat.le_succ_of_le hfew),
      archiveName_kept hshort hzero h hfew, cString_compressBase_iff harchive, and_iff_left hfew,
      or_iff_left fun many => by omega]
  · rw [received_iff_archiveName hshort hzero h (Nat.le_of_eq hlength),
      archiveName_taken hshort hzero h hlength, and_iff_right hlength,
      or_iff_right fun few => by omega]
  · refine iff_of_false (not_received_of_many hmany) ?_
    rintro (⟨-, hfew⟩ | ⟨hlength, -⟩)
    · omega
    · omega

/-- A packet that leaves its array is none that fits. -/
theorem decodes_iff_fits (c : ConnId)
    (hshort : ∀ path ∈ request.paths, path.length < maxFilenameLen)
    (harchive : 0 ∉ request.archive) (hzero : ∀ path ∈ request.paths, 0 ∉ path) :
    request.Decodes c ((PacketController.createCompressPacket junk request.format request.level
        request.all request.paths request.archive).map fun packet => some [packet]) ↔
      request.Fits := by
  have hpacket : PacketController.createCompressPacket junk request.format request.level
      request.all request.paths request.archive =
        PacketController.copyFileNames (compressBase junk request) 0 request.paths := rfl
  rw [hpacket]
  cases hcopy : PacketController.copyFileNames (compressBase junk request) 0 request.paths with
  | ok packet =>
      have received := received_iff hshort harchive hzero hcopy
      rw [← received_frame_iff c (compressBase_front hcopy).2.1] at received
      rw [← received]
      constructor
      · rintro (hrefused | ⟨sent, hsent, hreceived⟩)
        · cases hrefused
        · cases hsent
          exact hreceived
      · intro hreceived
        exact .inr ⟨packet, rfl, hreceived⟩
  | error fault =>
      refine iff_of_false ?_ fun fits => ?_
      · rintro (hrefused | ⟨sent, hsent, -⟩)
        · cases hrefused
        · cases hsent
      · have hroom : 0 + request.paths.length ≤ maxFiles + 1 := by
          rcases fits with ⟨-, hle⟩ | ⟨hlength, -⟩
          · omega
          · omega
        obtain ⟨b, hb, -⟩ := copyFileNames_short hshort hzero (compressBase junk request) 0 hroom
        rw [hcopy] at hb
        cases hb

end Packet

/-! ### The command -/

/-- What a line asks for arrives exactly when its names fit before the archive name. -/
theorem compress_line_iff (junk : Nat → Nat → Buffer)
    (readEntireFile : Str → Option (List UInt8)) (c : ConnId) {input : Buffer} {line : Str}
    {request : CompressRequest} (h : HoldsLine input line) (typed : request.Typed line) :
    request.Decodes c (parseCommandToPackets junk readEntireFile input) ↔ request.Fits := by
  obtain ⟨harchive, hzero⟩ := typed.noNul h.noNul
  rw [parse_compress_typed h typed]
  exact decodes_iff_fits c typed.short harchive hzero

theorem compress_line_example :
    (CompressRequest.mk (ascii "a") [.level .good, .path (ascii "b"), .all, .format .xz]).Decodes 0
        (parseCommandToPackets (fun _ _ => Buffer.zero) (fun _ => none)
          (lineBuffer (ascii "compress a --level GOOD b * --format XZ"))) ↔
      (CompressRequest.mk (ascii "a")
        [.level .good, .path (ascii "b"), .all, .format .xz]).Fits :=
  compress_line_iff _ _ _ (holdsLine_lineBuffer (by decide) (by decide))
    ⟨⟨ascii "a --level GOOD b * --format XZ", by decide, by decide⟩, by decide, by decide⟩

/-! ### One name too many -/

/-- The archive `z`, and the file `a` a number of times. -/
def crowdedRequest (n : Nat) : CompressRequest where
  archive := ascii "z"
  items := List.replicate n (.path (ascii "a"))

def crowdedWords (n : Nat) : Str := (List.replicate n (32 :: ascii "a")).flatten

theorem paths_crowdedRequest (n : Nat) :
    (crowdedRequest n).paths = List.replicate n (ascii "a") := by
  simp only [crowdedRequest, CompressRequest.paths]
  exact List.filterMap_replicate_of_some rfl

theorem streamWords_crowdedWords (n : Nat) (word : Str) (hword : streamWords word = [word]) :
    streamWords (word ++ crowdedWords n) = word :: List.replicate n (ascii "a") := by
  induction n generalizing word with
  | zero => simpa [crowdedWords] using hword
  | succ n ih =>
      have hnext : crowdedWords (n + 1) = 32 :: (ascii "a" ++ crowdedWords n) := rfl
      rw [hnext, streamWords_append, hword, ih (ascii "a") (by decide)]
      rfl

def crowdedLine (n : Nat) : Str := ascii "compress " ++ (ascii "z" ++ crowdedWords n)

theorem typed_crowdedLine (n : Nat) : (crowdedRequest n).Typed (crowdedLine n) := by
  have hpath : ∀ path ∈ (crowdedRequest n).paths, path = ascii "a" := by
    rw [paths_crowdedRequest]
    exact fun path hmem => List.eq_of_mem_replicate hmem
  have hitems : (crowdedRequest n).items.flatMap CompressItem.words =
      List.replicate n (ascii "a") := by
    simp only [crowdedRequest, List.flatMap_replicate, CompressItem.words]
    exact List.flatten_replicate_singleton
  refine ⟨⟨_, rfl, ?_⟩, fun path hmem => ?_, fun path hmem => ?_⟩
  · rw [hitems, streamWords_crowdedWords n _ (by decide)]
    rfl
  · rw [hpath path hmem]
    decide
  · rw [hpath path hmem]
    decide

theorem holdsLine_crowdedLine {n : Nat} (h : n ≤ 500) :
    HoldsLine (lineBuffer (crowdedLine n)) (crowdedLine n) := by
  refine holdsLine_lineBuffer ?_ ?_
  · rw [crowdedLine, List.mem_append, List.mem_append]
    rintro (hmem | hmem | hmem)
    · exact absurd hmem (by decide)
    · exact absurd hmem (by decide)
    · obtain ⟨word, hword, hzero⟩ := List.mem_flatten.mp hmem
      rw [List.eq_of_mem_replicate hword] at hzero
      exact absurd hzero (by decide)
  · simp [crowdedLine, crowdedWords, ascii, sizeofInput]
    omega

/-- The last of 129 files is taken for the archive. -/
theorem not_compress_line :
    HoldsLine (lineBuffer (crowdedLine 129)) (crowdedLine 129) ∧
      (crowdedRequest 129).Typed (crowdedLine 129) ∧
      ¬ (crowdedRequest 129).Decodes 0
        (parseCommandToPackets (fun _ _ => Buffer.zero) (fun _ => none)
          (lineBuffer (crowdedLine 129))) := by
  have holds : HoldsLine (lineBuffer (crowdedLine 129)) (crowdedLine 129) :=
    holdsLine_crowdedLine (by decide)
  have typed := typed_crowdedLine 129
  obtain ⟨harchive, hzero⟩ := typed.noNul holds.noNul
  refine ⟨holds, typed, ?_⟩
  rw [parse_compress_typed holds typed, decodes_iff_fits 0 typed.short harchive hzero,
    CompressRequest.Fits, paths_crowdedRequest, List.length_replicate]
  rintro (⟨-, hle⟩ | ⟨-, hlast⟩)
  · exact absurd hle (by decide)
  · rw [List.getElem?_replicate_of_lt (by decide)] at hlast
    exact absurd (Option.some.inj hlast) (by decide)

end ConcurrentTcp
