import ConcurrentTcp.Client.SetCommand

/-!
The commands and their words.

No word of a command is the front of another, so at most one command takes a line, whatever
the order of the tests. But a line is taken for every word that goes on behind the name, and
the argument is read behind the end of a line that has none: `command_words_iff` says which
lines the parser treats as their first word asks.
-/

namespace ConcurrentTcp

/-- The commands that become requests, in the order of their tests. -/
inductive Command where
  | status
  | cwd
  | download
  | rm
  | mkdir
  | compress
  | cd
  | mv
  | cp
  | getid
  | logout
  | connections
  | clean
  | ping
  | getSettings
  | set
  | login
  | upload
  | ls
deriving DecidableEq, Repr

/-- The first word of a line. -/
def firstWord (line : Str) : Str := line.takeWhile (· ≠ 32)

/-- Where `strtok` goes on behind the first word. -/
def behindFirstWord (line : Str) : Str := (line.dropWhile (· ≠ 32)).drop 1

/-- The file names among the words of a compress command. -/
def compressPaths (text : Str) : List Str :=
  (compressWords { level := [], format := [], compressAll := false, paths := [] }
    (streamWords text).tail).paths

namespace Command

def order : List Command :=
  [status, cwd, download, rm, mkdir, compress, cd, mv, cp, getid, logout, connections, clean,
    ping, getSettings, set, login, upload, ls]

def name : Command → String
  | status => "status"
  | cwd => "cwd"
  | download => "download"
  | rm => "rm"
  | mkdir => "mkdir"
  | compress => "compress"
  | cd => "cd"
  | mv => "mv"
  | cp => "cp"
  | getid => "getid"
  | logout => "logout"
  | connections => "connections"
  | clean => "clean"
  | ping => "ping"
  | getSettings => "get_settings"
  | set => "set"
  | login => "login"
  | upload => "upload"
  | ls => "ls"

/-- Where the branch of the command reads its argument. The set command passes `input + 3`,
of which the value is read 19 characters on. -/
def offset : Command → Option Nat
  | download | compress => some 9
  | rm | cd => some 3
  | mkdir | login => some 6
  | upload => some 7
  | set => some (3 + 19)
  | _ => none

def takesArgument : Command → Bool
  | download | rm | mkdir | compress | cd | mv | cp | set | login | upload => true
  | _ => false

/-- The argument as the branch of the command finds it. -/
def argument (C : Command) (input : Buffer) : Except Fault Str :=
  match C with
  | mv | cp => (stringAt input 0).map behindFirstWord
  | C =>
      match C.offset with
      | some off => stringAt input off
      | none => .ok []

/-- The line after the word and one space; the value of a setting is behind 18 characters
more, which are its name. -/
def argumentOf (C : Command) (line : Str) : Str :=
  match C with
  | set => (line.drop (C.name.length + 1)).drop 18
  | C => line.drop (C.name.length + 1)

/-- The request that the branch of the command makes of an argument. -/
def request (C : Command) (junk : Nat → Nat → Buffer)
    (readEntireFile : Str → Option (List UInt8)) (text : Str) :
    Except Fault (Option (List Buffer)) :=
  let p := junk 0 0
  match C with
  | status => .ok (some [PacketController.createServerStatusPacket p])
  | cwd => .ok (some [PacketController.createGetCwdPacket p])
  | download => .ok (some [createDownloadFilePacket p text])
  | rm => .ok (some [PacketController.createRemovePathPacket p text])
  | mkdir => .ok (some [PacketController.createMkdirPacket p text])
  | compress => (handleCompressCommand p text).map fun packet => some [packet]
  | cd => .ok (some [PacketController.createChangeWdPacket p text])
  | mv => (twoTokens (strtok text)).map fun paths =>
      some [PacketController.createMvPacket p paths.1 paths.2]
  | cp => (twoTokens (strtok text)).map fun paths =>
      some [PacketController.createCpPacket p paths.1 paths.2]
  | getid => .ok (some [PacketController.createGetIdPacket p])
  | logout => .ok (some [PacketController.createLogoutPacket p])
  | connections => .ok (some [PacketController.createConnectionsStatusPacket p])
  | clean => .ok (some [PacketController.createCleanPacket p])
  | ping => .ok (some [PacketController.createPingPacket p])
  | getSettings => .ok (some [PacketController.createGetSettingsPacket p])
  | set => (PacketController.createSetSettingPacketWrapped p text).map fun packet =>
      packet.map fun packet => [packet]
  | login => (twoTokens (strtok text)).map fun tokens =>
      some [PacketController.createLoginPacket p tokens.1 tokens.2]
  | upload => (uploadPackets junk readEntireFile 0 (strtok text)).map some
  | ls => .ok (some [PacketController.createLsPacket p])

/-- An argument of which the command makes a request. -/
def Accepts (C : Command) (readEntireFile : Str → Option (List UInt8)) (text : Str) : Prop :=
  match C with
  | mv | cp | login => 2 ≤ (strtok text).length
  | compress => ∀ i path, (compressPaths text)[i]? = some path →
      8 + maxFilenameLen * i + path.length < uint16Max
  | set => ∃ value, atoi text = some value ∧ ¬ (value > 255 ∨ value < 0)
  | upload => ∀ path ∈ strtok text, (readEntireFile path).isSome = true ∧
      path.length < maxFilenameLen
  | _ => True

/-- The argument begins in the line, or what is left behind the line is empty. -/
def ReadsLine (C : Command) (input : Buffer) (line : Str) : Prop :=
  ∀ off, C.offset = some off → off ≤ line.length ∨ input off = 0

end Command

/-- A line is only taken for the command that is its first word, with the text behind it, and
a line without such a word is refused. -/
structure CommandWords (junk : Nat → Nat → Buffer) (readEntireFile : Str → Option (List UInt8))
    (input : Buffer) (line : Str) : Prop where
  takes : ∀ packets, parseCommandToPackets junk readEntireFile input = .ok (some packets) →
    ∃ (C : Command) (text : Str), firstWord line = ascii C.name ∧
      C.argument input = .ok text ∧
      C.request junk readEntireFile text = .ok (some packets) ∧
      (C.takesArgument = true → text = C.argumentOf line)
  refuses : (∀ C : Command, firstWord line ≠ ascii C.name) →
    parseCommandToPackets junk readEntireFile input = .ok none

/-! ### Names -/

namespace Command

theorem mem_order (C : Command) : C ∈ order := by
  cases C <;> decide

/-- No name is the front of another. -/
theorem names_apart : ∀ C ∈ order, ∀ D ∈ order, ascii D.name <+: ascii C.name → D = C := by
  decide

/-- Two names at the front of a line are one. -/
theorem eq_of_names {C D : Command} {line : Str} (hC : ascii C.name <+: line)
    (hD : ascii D.name <+: line) : D = C := by
  rcases List.prefix_or_prefix_of_prefix hC hD with hlong | hshort
  · exact (names_apart D (mem_order D) C (mem_order C) hlong).symm
  · exact names_apart C (mem_order C) D (mem_order D) hshort

theorem name_noNul : ∀ C ∈ order, 0 ∉ ascii C.name := by
  decide

/-- A name is a word. -/
theorem name_word : ∀ C ∈ order, ascii C.name ≠ [] ∧ 32 ∉ ascii C.name := by
  decide

theorem name_of_firstWord {C : Command} {line : Str} (h : firstWord line = ascii C.name) :
    ascii C.name <+: line := by
  rw [← h]
  exact List.takeWhile_prefix _

end Command

/-! ### Branches -/

section Branches

variable {junk : Nat → Nat → Buffer} {readEntireFile : Str → Option (List UInt8)}
  {input : Buffer} {line : Str} {C : Command}

/-- The test of a name at the front of the line is the only one that it passes. -/
theorem startsWith_name (h : HoldsLine input line) (hC : ascii C.name <+: line) :
    ∀ D ∈ Command.order, startsWith input D.name = decide (D = C) := by
  intro D hD
  rw [Bool.eq_iff_iff, h.startsWith_iff (Command.name_noNul D hD), decide_eq_true_iff]
  constructor
  · exact Command.eq_of_names hC
  · rintro rfl
    exact hC

/-- The two tests for a help text. -/
theorem startsWith_help (h : HoldsLine input line) (hC : ascii C.name <+: line) :
    startsWith input "help" = false ∧ startsWith input "admin_help" = false := by
  obtain ⟨rest, rfl⟩ := hC
  have others : ∀ word ∈ ["help", "admin_help"], startsWith input word = false :=
    h.startsWith_front (by cases C <;> decide)
  simpa using others

/-- A text without spaces is one token. -/
theorem strtok_word {word : Str} (hne : word ≠ []) (hspace : 32 ∉ word) :
    strtok word = [word] := by
  have hone : word.splitOnP (· = 32) = [word] :=
    List.splitOnP_eq_singleton fun c hc => decide_eq_false fun heq => hspace (heq ▸ hc)
  rw [strtok, words, hone, List.filter_cons_of_pos (by simpa using hne), List.filter_nil]

/-- `strtok` goes on behind the first word. -/
theorem strtok_tail (hne : firstWord line ≠ []) :
    (strtok line).tail = strtok (behindFirstWord line) := by
  have hline : firstWord line ++ line.dropWhile (· ≠ 32) = line :=
    List.takeWhile_append_dropWhile
  have hword : strtok (firstWord line) = [firstWord line] := by
    refine strtok_word hne fun hmem => ?_
    have h := List.mem_takeWhile_imp hmem
    simp at h
  rw [behindFirstWord]
  cases hrest : line.dropWhile (· ≠ 32) with
  | nil =>
      rw [hrest, List.append_nil] at hline
      rw [← hline, hword]
      rfl
  | cons c rest =>
      have hspace : c = 32 := by
        have hhead := List.head?_dropWhile_not (· ≠ 32) line
        rw [hrest] at hhead
        simpa using hhead
      rw [hrest, hspace] at hline
      rw [← hline, strtok_append, hword]
      rfl

theorem firstWord_ne_nil (hC : ascii C.name <+: line) : firstWord line ≠ [] := by
  obtain ⟨hne, hspace⟩ := Command.name_word C (Command.mem_order C)
  obtain ⟨rest, rfl⟩ := hC
  rw [firstWord, List.takeWhile_append_of_pos]
  · exact List.append_ne_nil_of_left_ne_nil hne _
  · exact fun c hc => decide_eq_true fun heq => hspace (heq ▸ hc)

/-- A line that begins with a name is taken for the command, except for a setting without a
space. -/
theorem parse_command (h : HoldsLine input line) (hC : ascii C.name <+: line)
    (hspace : ¬ ascii "setCOMPRESSION_LEVEL=" <+: line) :
    parseCommandToPackets junk readEntireFile input =
      C.argument input >>= C.request junk readEntireFile := by
  have words := startsWith_name h hC
  obtain ⟨help, adminHelp⟩ := startsWith_help h hC
  simp only [Command.order, List.forall_mem_cons, Command.name] at words
  have tokens := strtok_tail (firstWord_ne_nil hC)
  have whole : stringAt input 0 = .ok line := h.stringAt_eq (Nat.zero_le _)
  cases C with
  | mv =>
      simp [parseCommandToPackets, words, whole, tokens, Command.argument, Command.request, bind,
        Except.bind, pure, Except.pure, Except.map]
  | cp =>
      simp [parseCommandToPackets, words, whole, tokens, Command.argument, Command.request, bind,
        Except.bind, pure, Except.pure, Except.map]
  | set =>
      rw [← read_setting_iff h hC] at hspace
      simp [parseCommandToPackets, words, help, adminHelp, Command.argument, Command.offset,
        Command.request, createSetSettingPacket, hspace, bind, Except.bind, pure, Except.pure,
        Except.map]
      cases stringAt input 22 with
      | error => rfl
      | ok text =>
          dsimp only
          cases PacketController.createSetSettingPacketWrapped (junk 0 0) text with
          | error => rfl
          | ok packet => cases packet <;> rfl
  | _ =>
      simp [parseCommandToPackets, words, help, adminHelp, Command.argument, Command.offset,
        Command.request, bind, Except.bind, pure, Except.pure, Except.map]

/-- A setting right behind the word leaves the branch, and no later test passes. -/
theorem parse_glued (h : HoldsLine input line)
    (hglued : ascii "setCOMPRESSION_LEVEL=" <+: line) :
    parseCommandToPackets junk readEntireFile input = .ok none := by
  have hset : ascii "set" <+: line := List.IsPrefix.trans (by decide) hglued
  have hnone : createSetSettingPacket (junk 0 0) input 3 = .ok none :=
    (createSetSettingPacket_none_iff _ h hset).mpr (.inl hglued)
  have words := startsWith_name (C := .set) h hset
  obtain ⟨help, adminHelp⟩ := startsWith_help (C := .set) h hset
  simp only [Command.order, List.forall_mem_cons, Command.name] at words
  simp [parseCommandToPackets, words, help, adminHelp, hnone, bind, Except.bind, pure,
    Except.pure]

/-- Any other line is refused, with a help text or without. -/
theorem parse_other (h : HoldsLine input line)
    (hnone : ∀ C : Command, ¬ ascii C.name <+: line) :
    parseCommandToPackets junk readEntireFile input = .ok none := by
  have words : ∀ D ∈ Command.order, startsWith input D.name = false := by
    intro D hD
    rw [Bool.eq_false_iff, ne_eq, h.startsWith_iff (Command.name_noNul D hD)]
    exact hnone D
  simp only [Command.order, List.forall_mem_cons, Command.name] at words
  simp [parseCommandToPackets, words, pure, Except.pure]

end Branches

/-! ### Requests -/

section Requests

variable {junk : Nat → Nat → Buffer} {readEntireFile : Str → Option (List UInt8)}
  {input : Buffer} {line text : Str} {C : Command}

theorem twoTokens_ok_iff {tokens : List Str} :
    (∃ pair, twoTokens tokens = .ok pair) ↔ 2 ≤ tokens.length := by
  match tokens with
  | [] => simp [twoTokens]
  | [_] => simp [twoTokens]
  | _ :: _ :: _ => simp [twoTokens]

theorem copyFileNames_ok_iff {p : Buffer} {i : Nat} {paths : List Str} :
    (∃ b, PacketController.copyFileNames p i paths = .ok b) ↔
      ∀ j path, paths[j]? = some path →
        8 + maxFilenameLen * (i + j) + path.length < uint16Max := by
  induction paths generalizing p i with
  | nil => simp [PacketController.copyFileNames]
  | cons path rest ih =>
      rw [PacketController.copyFileNames]
      split
      · rename_i hfits
        rw [ih]
        constructor
        · intro hrest j path' hpath
          cases j with
          | zero =>
              cases hpath
              exact hfits
          | succ j =>
              have hnext := hrest j path' hpath
              rwa [Nat.add_right_comm i 1 j] at hnext
        · intro hall j path' hpath
          have hnext := hall (j + 1) path' hpath
          rwa [Nat.add_right_comm i 1 j]
      · rename_i hfits
        refine iff_of_false nofun fun hall => ?_
        exact hfits (hall 0 path rfl)

theorem uploadPackets_ok_iff {i : Nat} {paths : List Str} :
    (∃ packets, uploadPackets junk readEntireFile i paths = .ok packets) ↔
      ∀ path ∈ paths, (readEntireFile path).isSome = true ∧ path.length < maxFilenameLen := by
  induction paths generalizing i with
  | nil => simp [uploadPackets]
  | cons path rest ih =>
      rw [List.forall_mem_cons, ← ih (i := i + 1), uploadPackets]
      cases readEntireFile path with
      | none => simp
      | some content =>
          by_cases hshort : path.length < maxFilenameLen
          · cases uploadPackets junk readEntireFile (i + 1) rest with
            | error => simp [hshort, bind, Except.bind]
            | ok later => simp [hshort, bind, Except.bind]
          · simp [hshort]

/-- A mapped result is as good as the result. -/
theorem map_some_iff {α β : Type} {x : Except Fault α} {f : α → β} :
    (∃ y, x.map (fun a => some (f a)) = .ok (some y)) ↔ ∃ a, x = .ok a := by
  cases x with
  | error => simp [Except.map]
  | ok a => simp [Except.map]

theorem map_ne_none {α β : Type} {x : Except Fault α} {f : α → β} :
    x.map (fun a => some (f a)) ≠ .ok none := by
  cases x with
  | error => simp [Except.map]
  | ok a => simp [Except.map]

/-- The arguments of which a request is made. -/
theorem accepts_iff :
    (∃ packets, C.request junk readEntireFile text = .ok (some packets)) ↔
      C.Accepts readEntireFile text := by
  cases C with
  | mv => exact map_some_iff.trans twoTokens_ok_iff
  | cp => exact map_some_iff.trans twoTokens_ok_iff
  | login => exact map_some_iff.trans twoTokens_ok_iff
  | compress =>
      refine map_some_iff.trans (copyFileNames_ok_iff.trans ?_)
      simp only [Nat.zero_add]
      rfl
  | upload => exact map_some_iff.trans uploadPackets_ok_iff
  | set =>
      refine Iff.trans ?_ (createSetSettingPacketWrapped_some_iff (junk 0 0))
      rw [Command.request]
      cases PacketController.createSetSettingPacketWrapped (junk 0 0) text with
      | error => simp [Except.map]
      | ok packet => cases packet <;> simp [Except.map]
  | _ => exact iff_of_true ⟨_, rfl⟩ trivial

/-- Only the set command turns an argument down. -/
theorem request_none_iff :
    C.request junk readEntireFile text = .ok none ↔
      C = .set ∧ ∃ value, atoi text = some value ∧ (value > 255 ∨ value < 0) := by
  cases C with
  | set =>
      rw [and_iff_right rfl]
      refine Iff.trans ?_ (createSetSettingPacketWrapped_none_iff (junk 0 0))
      rw [Command.request]
      cases PacketController.createSetSettingPacketWrapped (junk 0 0) text with
      | error => simp [Except.map]
      | ok packet => cases packet <;> simp [Except.map]
  | mv => simp [Command.request, map_ne_none]
  | cp => simp [Command.request, map_ne_none]
  | login => simp [Command.request, map_ne_none]
  | compress => simp [Command.request, map_ne_none]
  | upload => exact iff_of_false map_ne_none (by simp)
  | _ => simp [Command.request]

/-! ### Arguments -/

/-- A pointer reads the rest of the line, unless it points behind what the array has left. -/
theorem stringAt_eq_drop_iff (h : HoldsLine input line) {off : Nat}
    (htext : stringAt input off = .ok text) :
    text = line.drop off ↔ off ≤ line.length ∨ input off = 0 := by
  by_cases hoff : off ≤ line.length
  · rw [h.stringAt_eq hoff] at htext
    exact iff_of_true (Except.ok.inj htext).symm (.inl hoff)
  · rw [or_iff_right hoff, List.drop_of_length_le (Nat.le_of_not_le hoff)]
    rw [stringAt] at htext
    cases hroom : sizeofInput - off with
    | zero =>
        rw [hroom] at htext
        cases htext
    | succ room =>
        rw [hroom, Buffer.cString] at htext
        by_cases hzero : input off = 0
        · rw [if_pos hzero] at htext
          exact iff_of_true (Except.ok.inj htext).symm hzero
        · rw [if_neg hzero] at htext
          refine iff_of_false ?_ hzero
          rintro rfl
          cases hrest : input.cString (off + 1) room with
          | none =>
              rw [hrest] at htext
              cases htext
          | some rest =>
              rw [hrest] at htext
              cases htext

/-- What `strtok` leaves begins behind the first space. -/
theorem behindFirstWord_eq {word : Str} (hword : firstWord line = word) :
    behindFirstWord line = line.drop (word.length + 1) := by
  have hline : word ++ line.dropWhile (· ≠ 32) = line := by
    rw [← hword]
    exact List.takeWhile_append_dropWhile
  rw [behindFirstWord, ← List.drop_drop]
  congr 1
  rw [← hline, List.drop_left, hline]

theorem argument_of_offset {off : Nat} (hoff : C.offset = some off) :
    C.argument input = stringAt input off := by
  cases C with
  | mv => cases hoff
  | cp => cases hoff
  | _ => simp only [Command.argument, hoff]

/-- The branch points behind the word and one space. -/
theorem argumentOf_offset {off : Nat} (hoff : C.offset = some off) :
    C.argumentOf line = line.drop off := by
  cases C with
  | set =>
      cases hoff
      exact List.drop_drop
  | _ => cases hoff <;> rfl

/-- The commands whose arguments `strtok` finds. -/
theorem eq_of_no_offset (hoff : C.offset = none) (htakes : C.takesArgument = true) :
    C = .mv ∨ C = .cp := by
  cases C <;> simp_all [Command.offset, Command.takesArgument]

/-- The argument is the text behind the word when it begins in the line. -/
theorem argument_eq_iff (h : HoldsLine input line) (hword : firstWord line = ascii C.name)
    (htext : C.argument input = .ok text) :
    (C.takesArgument = true → text = C.argumentOf line) ↔ C.ReadsLine input line := by
  cases hoff : C.offset with
  | some off =>
      have htakes : C.takesArgument = true := by
        cases C <;> simp_all [Command.offset, Command.takesArgument]
      rw [argument_of_offset hoff] at htext
      rw [argumentOf_offset hoff, Command.ReadsLine, hoff]
      simp only [htakes, forall_true_left, Option.some.injEq, forall_eq']
      exact stringAt_eq_drop_iff h htext
  | none =>
      refine iff_of_true (fun htakes => ?_) fun off hsome => ?_
      · have hargument : (stringAt input 0).map behindFirstWord = .ok text ∧
            C.argumentOf line = line.drop ((ascii C.name).length + 1) := by
          rcases eq_of_no_offset hoff htakes with rfl | rfl
          · exact ⟨htext, rfl⟩
          · exact ⟨htext, rfl⟩
        rw [h.stringAt_eq (Nat.zero_le _), List.drop_zero] at hargument
        rw [hargument.2, ← behindFirstWord_eq hword]
        exact (Except.ok.inj hargument.1).symm
      · rw [hoff] at hsome
        cases hsome

variable (junk readEntireFile) in
/-- The set command without a request. -/
theorem refusesText_iff : RefusesText input ↔
    ∃ text, Command.set.argument input = .ok text ∧
      Command.set.request junk readEntireFile text = .ok none := by
  constructor
  · rintro ⟨text, value, htext, hvalue⟩
    exact ⟨text, htext, request_none_iff.mpr ⟨rfl, value, hvalue⟩⟩
  · rintro ⟨text, htext, hnone⟩
    obtain ⟨-, value, hvalue⟩ := request_none_iff.mp hnone
    exact ⟨text, value, htext, hvalue⟩

/-! ### Lines -/

/-- A setting right behind the word is refused, as the line should be. -/
theorem commandWords_of_glued (h : HoldsLine input line)
    (hglued : ascii "setCOMPRESSION_LEVEL=" <+: line) :
    CommandWords junk readEntireFile input line := by
  have hparse : parseCommandToPackets junk readEntireFile input = .ok none :=
    parse_glued h hglued
  refine ⟨fun packets hpackets => ?_, fun _ => hparse⟩
  rw [hparse] at hpackets
  cases hpackets

/-- So is a line that begins with no name. -/
theorem commandWords_of_no_name (h : HoldsLine input line)
    (hnone : ∀ C : Command, ¬ ascii C.name <+: line) :
    CommandWords junk readEntireFile input line := by
  have hparse : parseCommandToPackets junk readEntireFile input = .ok none :=
    parse_other h hnone
  refine ⟨fun packets hpackets => ?_, fun _ => hparse⟩
  rw [hparse] at hpackets
  cases hpackets

/-- A name at the front of a line is its first word, and the argument is in the line; or the
set command refuses what it reads. -/
theorem commandWords_of_name (h : HoldsLine input line) (hC : ascii C.name <+: line)
    (hspace : ¬ ascii "setCOMPRESSION_LEVEL=" <+: line)
    (condition : firstWord line = ascii C.name ∧
        (∀ text, C.argument input = .ok text → C.Accepts readEntireFile text →
          C.ReadsLine input line) ∨
      C = .set ∧ RefusesText input) :
    CommandWords junk readEntireFile input line := by
  have parse : parseCommandToPackets junk readEntireFile input =
      C.argument input >>= C.request junk readEntireFile := parse_command h hC hspace
  rcases condition with ⟨hword, hreads⟩ | ⟨rfl, hrefuses⟩
  · refine ⟨fun packets hpackets => ?_, fun hnone => absurd hword (hnone C)⟩
    rw [parse] at hpackets
    cases htext : C.argument input with
    | error fault =>
        rw [htext] at hpackets
        cases hpackets
    | ok text =>
        rw [htext] at hpackets
        have hinside := hreads text htext (accepts_iff.mp ⟨packets, hpackets⟩)
        exact ⟨C, text, hword, htext, hpackets, (argument_eq_iff h hword htext).mpr hinside⟩
  · obtain ⟨text, htext, hnone⟩ := (refusesText_iff junk readEntireFile).mp hrefuses
    have hparse : parseCommandToPackets junk readEntireFile input = .ok none := by
      rw [parse, htext]
      exact hnone
    refine ⟨fun packets hpackets => ?_, fun _ => hparse⟩
    rw [hparse] at hpackets
    cases hpackets

/-- A parser that goes by the first words meets the condition at every name. -/
theorem CommandWords.condition (works : CommandWords junk readEntireFile input line)
    (h : HoldsLine input line) (hC : ascii C.name <+: line)
    (hspace : ¬ ascii "setCOMPRESSION_LEVEL=" <+: line) :
    firstWord line = ascii C.name ∧
        (∀ text, C.argument input = .ok text → C.Accepts readEntireFile text →
          C.ReadsLine input line) ∨
      C = .set ∧ RefusesText input := by
  have parse : parseCommandToPackets junk readEntireFile input =
      C.argument input >>= C.request junk readEntireFile := parse_command h hC hspace
  by_cases hword : firstWord line = ascii C.name
  · refine .inl ⟨hword, fun text htext haccepts => ?_⟩
    obtain ⟨packets, hpackets⟩ := accepts_iff.mpr haccepts
    have hparse : parseCommandToPackets junk readEntireFile input = .ok (some packets) := by
      rw [parse, htext]
      exact hpackets
    obtain ⟨D, text', hword', htext', -, hargument⟩ := works.takes packets hparse
    obtain rfl : D = C := Command.eq_of_names hC (Command.name_of_firstWord hword')
    obtain rfl : text' = text := by
      rw [htext] at htext'
      exact (Except.ok.inj htext').symm
    exact (argument_eq_iff h hword htext).mp hargument
  · have hparse := works.refuses fun D hD =>
      hword (Command.eq_of_names hC (Command.name_of_firstWord hD) ▸ hD)
    rw [parse] at hparse
    cases htext : C.argument input with
    | error fault =>
        rw [htext] at hparse
        cases hparse
    | ok text =>
        rw [htext] at hparse
        have hnone : C.request junk readEntireFile text = .ok none := hparse
        obtain rfl : C = .set := (request_none_iff.mp hnone).1
        exact .inr ⟨rfl, (refusesText_iff junk readEntireFile).mpr ⟨text, htext, hnone⟩⟩

end Requests

/-- A line that is taken for a command has the word of the command as its first, and the
argument in the line; or it is a setting that is refused. -/
theorem command_words_iff (junk : Nat → Nat → Buffer)
    (readEntireFile : Str → Option (List UInt8)) {input : Buffer} {line : Str}
    (h : HoldsLine input line) :
    CommandWords junk readEntireFile input line ↔
      ∀ C : Command, ascii C.name <+: line →
        firstWord line = ascii C.name ∧
            (∀ text, C.argument input = .ok text → C.Accepts readEntireFile text →
              C.ReadsLine input line) ∨
          C = .set ∧ (ascii "setCOMPRESSION_LEVEL=" <+: line ∨ RefusesText input) := by
  by_cases hglued : ascii "setCOMPRESSION_LEVEL=" <+: line
  · refine iff_of_true (commandWords_of_glued h hglued) fun C hC => .inr ?_
    have hset : ascii Command.set.name <+: line := List.IsPrefix.trans (by decide) hglued
    exact ⟨Command.eq_of_names hset hC, .inl hglued⟩
  simp only [or_iff_right hglued]
  constructor
  · intro works C hC
    exact works.condition h hC hglued
  · intro condition
    by_cases hany : ∃ C : Command, ascii C.name <+: line
    · obtain ⟨C, hC⟩ := hany
      exact commandWords_of_name h hC hglued (condition C hC)
    · exact commandWords_of_no_name h (not_exists.mp hany)

theorem command_words_example :
    CommandWords (fun _ _ => Buffer.zero) (fun _ => none) (lineBuffer (ascii "rm x"))
      (ascii "rm x") := by
  refine (command_words_iff _ _ (holdsLine_lineBuffer (by decide) (by decide))).mpr ?_
  intro C hC
  obtain rfl : C = .rm := Command.eq_of_names (by decide) hC
  refine .inl ⟨by decide, fun text _ _ off hoff => .inl ?_⟩
  cases hoff
  decide

/-- `rmdir` is no command, but `rm` takes the line. -/
theorem not_command_words :
    HoldsLine (lineBuffer (ascii "rmdir x")) (ascii "rmdir x") ∧
      ¬ CommandWords (fun _ _ => Buffer.zero) (fun _ => none) (lineBuffer (ascii "rmdir x"))
        (ascii "rmdir x") := by
  have holds : HoldsLine (lineBuffer (ascii "rmdir x")) (ascii "rmdir x") :=
    holdsLine_lineBuffer (by decide) (by decide)
  refine ⟨holds, fun works => ?_⟩
  have hname : ∀ C ∈ Command.order, firstWord (ascii "rmdir x") ≠ ascii C.name := by decide
  have hparse := works.refuses fun C => hname C (Command.mem_order C)
  have htext : stringAt (lineBuffer (ascii "rmdir x")) 3 = .ok ((ascii "rmdir x").drop 3) :=
    holds.stringAt_eq (by decide)
  rw [parse_command (C := .rm) holds (by decide) (by decide),
    argument_of_offset (C := .rm) rfl, htext] at hparse
  cases hparse

end ConcurrentTcp
