import ConcurrentTcp.Client.PacketController

/-!
The commands of the client (`Menu::parse_command_to_packets` in `client/menu.hpp`).

The input is the array of `main`: a line, its NUL, and what earlier lines left behind it.
A command is found by the first characters of the line, and its arguments are read at a
fixed offset, whatever stands between. What `strtok` writes into the array and what is
printed are left out.
-/

namespace ConcurrentTcp

/-! ### The input -/

/-- `sizeof(input)` -/
def sizeofInput : Nat := 1024

/-- The array holds the line. -/
structure HoldsLine (input : Buffer) (line : Str) : Prop where
  noNul : 0 ∉ line
  fits : line.length < sizeofInput
  stored : input.read 0 (line.length + 1) = line ++ [0]

/-- `strncmp(input, word, n) == 0` for a literal of length `n`. -/
def startsWith (input : Buffer) (word : String) : Bool :=
  input.read 0 (ascii word).length = ascii word

/-- `input + off` as a C string. -/
def stringAt (input : Buffer) (off : Nat) : Except Fault Str :=
  match input.cString off (sizeofInput - off) with
  | some s => .ok s
  | none => .error .undefinedBehaviour

section Input

variable {input : Buffer} {line : Str}

theorem HoldsLine.byte (h : HoldsLine input line) {i : Nat} (hi : i ≤ line.length) :
    input i = (line ++ [0]).getD i 0 := by
  have hread := congrArg (fun bytes => bytes.getD i 0) h.stored
  simp only [List.getD_eq_getElem?_getD] at hread ⊢
  rw [Buffer.getElem?_read _ _ (by omega), Nat.zero_add] at hread
  exact hread

/-- A word is compared with the front of the line, of which it can be no longer. -/
theorem HoldsLine.startsWith_iff (h : HoldsLine input line) {word : String}
    (hword : 0 ∉ ascii word) : startsWith input word = true ↔ ascii word <+: line := by
  rw [startsWith, decide_eq_true_iff]
  have bytes (hle : (ascii word).length ≤ line.length) :
      input.read 0 (ascii word).length = line.take (ascii word).length := by
    have hall := congrArg (List.take (ascii word).length) h.stored
    rw [List.take_append_of_le_length hle] at hall
    rw [← hall, Buffer.read, Buffer.read, ← List.map_take, List.take_range]
    congr 2
    omega
  constructor
  · intro heq
    rcases Nat.lt_or_ge line.length (ascii word).length with hlt | hle
    · have hzero : input line.length = 0 := by simp [h.byte (Nat.le_refl _)]
      have hmem : input line.length ∈ ascii word := by
        rw [← heq]
        exact List.mem_map.mpr ⟨line.length, List.mem_range.mpr hlt, by rw [Nat.zero_add]⟩
      exact absurd (hzero ▸ hmem) hword
    · rw [← heq, bytes hle]
      exact List.take_prefix ..
  · intro hprefix
    rw [bytes hprefix.length_le, List.prefix_iff_eq_take.mp hprefix]
    simp

/-- A line that begins otherwise. -/
theorem HoldsLine.not_startsWith {front rest : Str} (h : HoldsLine input (front ++ rest))
    {word : String} (hword : 0 ∉ ascii word)
    (apart : ¬ (ascii word <+: front ∨ front <+: ascii word)) :
    startsWith input word = false := by
  rw [Bool.eq_false_iff, ne_eq, h.startsWith_iff hword]
  exact fun hprefix =>
    apart (List.prefix_or_prefix_of_prefix hprefix (List.prefix_append front rest))

/-- A pointer into the line reads the rest of it. -/
theorem HoldsLine.stringAt_eq (h : HoldsLine input line) {off : Nat} (hoff : off ≤ line.length) :
    stringAt input off = .ok (line.drop off) := by
  have hdrop : 0 ∉ line.drop off := fun hmem => h.noNul (List.mem_of_mem_drop hmem)
  have hlength : (line.drop off).length < line.length - off + 1 := by
    rw [List.length_drop]
    omega
  have hline := @Buffer.cString_getD (line.take off) _ [] _ hdrop hlength
  rw [List.take_append_drop, List.length_take_of_le hoff] at hline
  have hstring : input.cString off (line.length - off + 1) = some (line.drop off) := by
    rw [← hline]
    refine Buffer.cString_congr fun i _ hi => h.byte ?_
    omega
  have hroom : line.length - off + 1 ≤ sizeofInput - off := by
    have hfits := h.fits
    omega
  rw [stringAt, Buffer.cString_mono hroom hstring]

end Input

/-! ### Words -/

/-- What is left between delimiters, without what is empty. -/
def words (delimiter : UInt8 → Bool) (s : Str) : List Str :=
  (s.splitOnP delimiter).filter (· ≠ [])

/-- The tokens of `strtok` for the delimiter `" "`. -/
def strtok (s : Str) : List Str := words (· = 32) s

/-- The words that `operator>>` reads of a stream. -/
def streamWords (s : Str) : List Str := words isSpace s

/-- Two tokens; a null pointer is not checked. -/
def twoTokens : List Str → Except Fault (Str × Str)
  | first :: second :: _ => .ok (first, second)
  | _ => .error .undefinedBehaviour

theorem mem_of_mem_splitOnP {p : UInt8 → Bool} {s w : Str} {c : UInt8}
    (hw : w ∈ s.splitOnP p) (hc : c ∈ w) : c ∈ s := by
  induction s generalizing w with
  | nil =>
      rw [List.splitOnP_nil, List.mem_singleton] at hw
      rwa [hw] at hc
  | cons d s ih =>
      rw [List.splitOnP_cons_eq_if_modifyHead] at hw
      split at hw
      · rcases List.mem_cons.mp hw with rfl | hw
        · cases hc
        · exact List.mem_cons_of_mem _ (ih hw hc)
      · cases hpieces : s.splitOnP p with
        | nil => exact absurd hpieces (List.splitOnP_ne_nil p s)
        | cons first rest =>
            rw [hpieces] at hw ih
            rcases List.mem_cons.mp hw with rfl | hw
            · rcases List.mem_cons.mp hc with rfl | hc
              · exact List.mem_cons_self
              · exact List.mem_cons_of_mem _ (ih List.mem_cons_self hc)
            · exact List.mem_cons_of_mem _ (ih (List.mem_cons_of_mem _ hw) hc)

/-- A token is made of characters of the line. -/
theorem mem_of_mem_strtok {s w : Str} {c : UInt8} (hw : w ∈ strtok s) (hc : c ∈ w) : c ∈ s :=
  mem_of_mem_splitOnP (List.mem_filter.mp hw).1 hc

/-- The words before a delimiter and those after it. -/
theorem words_append {delimiter : UInt8 → Bool} {c : UInt8} (hc : delimiter c = true)
    (s t : Str) : words delimiter (s ++ c :: t) = words delimiter s ++ words delimiter t := by
  rw [words, List.splitOnP_append_cons s t hc, List.filter_append]
  rfl

theorem strtok_append (s t : Str) : strtok (s ++ 32 :: t) = strtok s ++ strtok t :=
  words_append rfl s t

theorem streamWords_append (s t : Str) :
    streamWords (s ++ 32 :: t) = streamWords s ++ streamWords t :=
  words_append rfl s t

/-! ### Compression -/

/-- The options of a compress command. -/
structure CompressOptions where
  level : Str
  format : Str
  compressAll : Bool
  paths : List Str

/-- The loop over the words behind the archive name. -/
def compressWords (options : CompressOptions) : List Str → CompressOptions
  | [] => options
  | word :: rest =>
      if word = ascii "--level" then
        match rest with
        | [] => options
        | level :: rest => compressWords { options with level } rest
      else if word = ascii "--format" then
        match rest with
        | [] => options
        | format :: rest => compressWords { options with format } rest
      else if word = ascii "*" then compressWords { options with compressAll := true } rest
      else compressWords { options with paths := options.paths ++ [word] } rest

/-- Unknown levels are `NORMAL`. -/
def levelOf (s : Str) : Level :=
  if s = ascii "FASTEST" then .fastest
  else if s = ascii "FAST" then .fast
  else if s = ascii "NORMAL" then .normal
  else if s = ascii "GOOD" then .good
  else if s = ascii "BEST" then .best
  else .normal

/-- Unknown formats are `ZSTD`. -/
def formatOf (s : Str) : Format :=
  if s = ascii "GZIP" then .gzip
  else if s = ascii "XZ" then .xz
  else if s = ascii "LZMA" then .lzma
  else if s = ascii "LZ4" then .lz4
  else if s = ascii "ZIP" then .zip
  else .zstd

/-- `handle_compress_command` -/
def handleCompressCommand (junk : Buffer) (input : Str) : Except Fault Buffer :=
  let noOptions : CompressOptions :=
    { level := [], format := [], compressAll := false, paths := [] }
  let archiveName := (streamWords input).headD []
  let options := compressWords noOptions (streamWords input).tail
  PacketController.createCompressPacket junk (formatOf options.format) (levelOf options.level)
    options.compressAll options.paths archiveName

/-! ### Settings and uploads -/

/-- `PacketController::create_set_setting_packet` of `input + str`. It goes on when the text
is not the setting, and skips one character more than the setting has. -/
def createSetSettingPacket (junk : Buffer) (input : Buffer) (str : Nat) :
    Except Fault (Option Buffer) := do
  if input.read str 18 ≠ ascii "COMPRESSION_LEVEL=" then
    PacketController.createSetSettingPacketWrapped junk (← stringAt input (str + 19))
  else .ok none

/-- The packets of one file after another. A file that cannot be read ends the client, and
a name that does not fit its field leaves the packet. -/
def uploadPackets (junk : Nat → Nat → Buffer) (readEntireFile : Str → Option (List UInt8))
    (i : Nat) : List Str → Except Fault (List Buffer)
  | [] => .ok []
  | path :: rest => do
      match readEntireFile path with
      | none => .error .filesystemError
      | some content =>
          if path.length < maxFilenameLen then
            let later ← uploadPackets junk readEntireFile (i + 1) rest
            .ok (createFileTransferPackets (junk i) path content
              (uint16Max - sizeofPacketHeader) ++ later)
          else .error .undefinedBehaviour

/-! ### Commands -/

/-- `Menu::parse_command_to_packets`. Command and offset are independent: no branch looks
at the character behind the word. -/
def parseCommandToPackets (junk : Nat → Nat → Buffer)
    (readEntireFile : Str → Option (List UInt8)) (input : Buffer) :
    Except Fault (Option (List Buffer)) := do
  let p := junk 0 0
  if startsWith input "status" then
    return some [PacketController.createServerStatusPacket p]
  if startsWith input "cwd" then
    return some [PacketController.createGetCwdPacket p]
  if startsWith input "download" then
    return some [createDownloadFilePacket p (← stringAt input 9)]
  if startsWith input "rm" then
    return some [PacketController.createRemovePathPacket p (← stringAt input 3)]
  if startsWith input "mkdir" then
    return some [PacketController.createMkdirPacket p (← stringAt input 6)]
  if startsWith input "compress" then
    return some [← handleCompressCommand p (← stringAt input 9)]
  if startsWith input "cd" then
    return some [PacketController.createChangeWdPacket p (← stringAt input 3)]
  if startsWith input "mv" then
    let (path1, path2) ← twoTokens (strtok (← stringAt input 0)).tail
    return some [PacketController.createMvPacket p path1 path2]
  if startsWith input "cp" then
    let (path1, path2) ← twoTokens (strtok (← stringAt input 0)).tail
    return some [PacketController.createCpPacket p path1 path2]
  if startsWith input "help" then
    return none
  if startsWith input "admin_help" then
    return none
  if startsWith input "getid" then
    return some [PacketController.createGetIdPacket p]
  if startsWith input "logout" then
    return some [PacketController.createLogoutPacket p]
  if startsWith input "connections" then
    return some [PacketController.createConnectionsStatusPacket p]
  if startsWith input "clean" then
    return some [PacketController.createCleanPacket p]
  if startsWith input "ping" then
    return some [PacketController.createPingPacket p]
  if startsWith input "get_settings" then
    return some [PacketController.createGetSettingsPacket p]
  if startsWith input "set" then
    -- Without a packet the source goes on to the other commands.
    if let some packet ← createSetSettingPacket p input 3 then
      return some [packet]
  if startsWith input "login" then
    let (username, password) ← twoTokens (strtok (← stringAt input 6))
    return some [PacketController.createLoginPacket p username password]
  if startsWith input "upload" then
    return some (← uploadPackets junk readEntireFile 0 (strtok (← stringAt input 7)))
  if startsWith input "ls" then
    return some [PacketController.createLsPacket p]
  return none

end ConcurrentTcp
