import ConcurrentTcp.Client.MainLoop
import ConcurrentTcp.Client.SamePackets

/-!
What is left behind the line (`client/menu.hpp`, `client/main.cpp`).

The array of `main` keeps what earlier lines left behind the NUL. Two runs of the parser on
arrays that hold the same line are compared. What they make of it is the same exactly when
the argument begins in the line (`line_only_iff`): the command of a line that is only its
word takes an old argument.
-/

namespace ConcurrentTcp

/-! ### The line alone -/

/-- What the parser makes of a line does not depend on what is left behind it. -/
def LineOnly (readEntireFile : Str → Option (List UInt8)) (line : Str) : Prop :=
  ∀ (junk junk' : Nat → Nat → Buffer) (input input' : Buffer), HoldsLine input line →
    HoldsLine input' line →
    SameResult (parseCommandToPackets junk readEntireFile input)
      (parseCommandToPackets junk' readEntireFile input')

/-- Where the branch of a command points to is in the line, or it refuses the line before. -/
def PointsInto (line : Str) : Prop :=
  ∀ (C : Command) (off : Nat), ascii C.name <+: line → C.offset = some off →
    off ≤ line.length ∨ C = .set ∧ ascii "setCOMPRESSION_LEVEL=" <+: line

/-- An array in which `text` is left behind a line. -/
def staleBuffer (line : Str) (off : Nat) (text : Str) : Buffer :=
  (lineBuffer line).write off (text ++ [0])

/-- Two texts of which a command makes different requests. -/
def Command.staleTexts : Command → Str × Str
  | .login => (ascii "a a", ascii "b b")
  | .upload => ([], ascii "a")
  | .set => (ascii "0", ascii "256")
  | _ => (ascii "a", ascii "b")

section LineOnly

variable {readEntireFile : Str → Option (List UInt8)} {line : Str} {C : Command} {off : Nat}

theorem Command.argument_line {input input' : Buffer} (h : HoldsLine input line)
    (h' : HoldsLine input' line) (hinto : ∀ off, C.offset = some off → off ≤ line.length) :
    ∃ text, C.argument input = .ok text ∧ C.argument input' = .ok text := by
  cases hoff : C.offset with
  | some off =>
      rw [argument_of_offset hoff, argument_of_offset hoff]
      exact ⟨line.drop off, h.stringAt_eq (hinto off hoff), h'.stringAt_eq (hinto off hoff)⟩
  | none =>
      cases C with
      | mv =>
          refine ⟨behindFirstWord line, ?_, ?_⟩
          · rw [Command.argument, h.stringAt_eq (Nat.zero_le _)]
            rfl
          · rw [Command.argument, h'.stringAt_eq (Nat.zero_le _)]
            rfl
      | cp =>
          refine ⟨behindFirstWord line, ?_, ?_⟩
          · rw [Command.argument, h.stringAt_eq (Nat.zero_le _)]
            rfl
          · rw [Command.argument, h'.stringAt_eq (Nat.zero_le _)]
            rfl
      | _ => first | exact ⟨[], rfl, rfl⟩ | cases hoff

theorem lineOnly_of_pointsInto (hinto : PointsInto line) : LineOnly readEntireFile line := by
  intro junk junk' input input' h h'
  by_cases hglued : ascii "setCOMPRESSION_LEVEL=" <+: line
  · rw [parse_glued h hglued, parse_glued h' hglued]
    exact .ok .none
  by_cases hname : ∃ C : Command, ascii C.name <+: line
  · obtain ⟨C, hC⟩ := hname
    obtain ⟨text, htext, htext'⟩ := C.argument_line h h' fun off hoff =>
      (hinto C off hC hoff).resolve_right fun hset => hglued hset.2
    rw [parse_command h hC hglued, parse_command h' hC hglued, htext, htext']
    exact sameResult_request C junk junk' readEntireFile text
  · rw [parse_other h (not_exists.mp hname), parse_other h' (not_exists.mp hname)]
    exact .ok .none

/-! ### Old text -/

/-- Where a line is typed again without its end, that end is what is left behind it, if the
client comes back from the first and leaves the array. -/
theorem old_argument {front text : Str} {passes : Nat → ClientPass} (input : Buffer)
    (hnewline : newline ∉ front ++ 32 :: text) (noNul : 0 ∉ front ++ 32 :: text)
    (hfront : front ≠ []) (hlen : (front ++ 32 :: text).length ≤ 1023)
    (back : (passes 0).run (withLine input (front ++ 32 :: text)) =
      some (withLine input (front ++ 32 :: text))) :
    ∃ first second, (mainLoop false 2 passes input
        (typedLines [front ++ 32 :: text, front])).1 = [first, second] ∧
      HoldsLine second front ∧ stringAt second (front.length + 1) = .ok text := by
  have hnewline' : newline ∉ front := fun hmem => hnewline (List.mem_append_left _ hmem)
  have noNul' : 0 ∉ front := fun hmem => noNul (List.mem_append_left _ hmem)
  have hlen' : front.length ≤ 1023 := by
    rw [List.length_append] at hlen
    omega
  have plain : PlainLine (front ++ 32 :: text) :=
    ⟨List.length_pos_of_ne_nil (by simp), hlen, noNul⟩
  have plain' : PlainLine front := ⟨List.length_pos_of_ne_nil hfront, hlen', noNul'⟩
  generalize hfirst : withLine input (front ++ 32 :: text) = first at back
  have typed : scanLine false input (typedLines [front ++ 32 :: text, front]) =
      some (first, typedLines [front]) := hfirst ▸ scanLine_plain hnewline plain
  have again : scanLine false first (typedLines [front]) =
      some (withLine first front, typedLines []) := scanLine_plain hnewline' plain'
  have holds : HoldsLine first (front ++ 32 :: text) := hfirst ▸ holdsLine_write input noNul hlen
  refine ⟨first, withLine first front, ?_, holdsLine_write first noNul' hlen', ?_⟩
  · rw [mainLoop_comesBack 1 typed back, mainLoop_one again]
  · have behind : (withLine first front).cString (front.length + 1)
        (sizeofInput - (front.length + 1)) =
          first.cString (front.length + 1) (sizeofInput - (front.length + 1)) := by
      refine Buffer.cString_congr fun i hi _ => Buffer.write_of_le _ _ _ ?_
      rwa [List.length_append, List.length_singleton, Nat.zero_add]
    have inside : front.length + 1 ≤ (front ++ 32 :: text).length := by simp
    have argument := holds.stringAt_eq inside
    rw [stringAt] at argument ⊢
    rw [behind, argument, ← List.drop_drop, List.drop_left]
    rfl

theorem holdsLine_staleBuffer (noNul : 0 ∉ line) (fits : line.length < sizeofInput)
    (hoff : line.length < off) (text : Str) : HoldsLine (staleBuffer line off text) line where
  noNul := noNul
  fits := fits
  stored := by
    have behind : (staleBuffer line off text).read 0 (line.length + 1) =
        (lineBuffer line).read 0 (line.length + 1) :=
      Buffer.read_write_of_le _ _ _ (by omega)
    rw [behind]
    exact (holdsLine_lineBuffer noNul fits).stored

theorem stringAt_staleBuffer {text : Str} (htext : 0 ∉ text)
    (hroom : off + text.length < sizeofInput) :
    stringAt (staleBuffer line off text) off = .ok text := by
  rw [stringAt, staleBuffer, Buffer.cString_write _ _ htext (by omega)]

/-- What `C` makes of old texts is what the parser makes of them. -/
theorem LineOnly.request (only : LineOnly readEntireFile line) (noNul : 0 ∉ line)
    (fits : line.length < sizeofInput) (hC : ascii C.name <+: line)
    (hglued : ¬ ascii "setCOMPRESSION_LEVEL=" <+: line) (hoff : C.offset = some off)
    (hbehind : line.length < off) (junk : Nat → Nat → Buffer) {text text' : Str}
    (htext : 0 ∉ text) (htext' : 0 ∉ text') (hroom : off + text.length < sizeofInput)
    (hroom' : off + text'.length < sizeofInput) :
    SameResult (C.request junk readEntireFile text) (C.request junk readEntireFile text') := by
  have h := holdsLine_staleBuffer noNul fits hbehind text
  have h' := holdsLine_staleBuffer noNul fits hbehind text'
  have both := only junk junk _ _ h h'
  rw [parse_command h hC hglued, parse_command h' hC hglued, argument_of_offset hoff,
    argument_of_offset hoff, stringAt_staleBuffer htext hroom,
    stringAt_staleBuffer htext' hroom'] at both
  exact both

theorem samePacket_of_sameResult {p p' : Buffer}
    (h : SameResult (.ok (some [p])) (.ok (some [p']))) : SamePacket false p p' := by
  cases h with
  | ok hpackets =>
      cases hpackets with
      | some hlist =>
          cases hlist with
          | cons hp _ => exact hp

/-- Packets whose strings begin differently. -/
theorem not_sameResult_of_head {p p' : Buffer} (ty : PacketType) (i : Nat)
    (command : p.command = ty.toByte) (hi : i ∈ stringOffsets false p ty) (hne : p i ≠ p' i) :
    ¬ SameResult (.ok (some [p])) (.ok (some [p'])) := by
  intro h
  have htype : PacketType.ofByte? p.command = some ty := by
    rw [command, PacketType.ofByte?_toByte]
  exact hne ((samePacket_of_sameResult h).strings ty htype i hi).head

theorem not_sameResult_path (ty : PacketType) (size : Nat)
    (hstrings : ∀ p, stringOffsets false p ty = [4]) :
    ¬ SameResult (.ok (some [createPathPacket ty size Buffer.zero (ascii "a")]))
      (.ok (some [createPathPacket ty size Buffer.zero (ascii "b")])) := by
  refine not_sameResult_of_head ty 4 (Buffer.command_setHeader ..) ?_ ?_
  · rw [hstrings]
    exact List.mem_singleton_self 4
  · simp only [createPathPacket, Buffer.setHeader_of_le _ _ _ (Nat.le_refl 4)]
    decide

theorem createFileTransferPackets_ne_nil (junk : Nat → Buffer) (path : Str)
    (content : List UInt8) (size : Nat) :
    createFileTransferPackets junk path content size ≠ [] := by
  simp [createFileTransferPackets, List.getLast?_cons]

theorem not_sameResult_compress (readEntireFile : Str → Option (List UInt8)) :
    ¬ SameResult
      (Command.compress.request (fun _ _ => Buffer.zero) readEntireFile (ascii "a"))
      (Command.compress.request (fun _ _ => Buffer.zero) readEntireFile (ascii "b")) := by
  have packet : ∀ archive, streamWords archive = [archive] →
      Command.compress.request (fun _ _ => Buffer.zero) readEntireFile archive =
        .ok (some [beforeNames Buffer.zero [0, 2, 0] 0 archive]) := by
    intro archive hwords
    rw [Command.request, handleCompressCommand, hwords]
    rfl
  rw [packet _ (by decide), packet _ (by decide)]
  refine not_sameResult_of_head .reqCompress (nameSlot maxFiles) (command_beforeNames ..)
    List.mem_cons_self ?_
  decide

theorem not_sameResult_login (readEntireFile : Str → Option (List UInt8)) :
    ¬ SameResult
      (Command.login.request (fun _ _ => Buffer.zero) readEntireFile (ascii "a a"))
      (Command.login.request (fun _ _ => Buffer.zero) readEntireFile (ascii "b b")) := by
  have tokens : strtok (ascii "a a") = [ascii "a", ascii "a"] := by decide
  have tokens' : strtok (ascii "b b") = [ascii "b", ascii "b"] := by decide
  simp only [Command.request]
  rw [tokens, tokens']
  refine not_sameResult_of_head .reqLogin 4 ?_ List.mem_cons_self ?_
  · decide
  · decide

/-- Without a path nothing is sent; with one, packets are, or the file cannot be read. -/
theorem not_sameResult_upload (readEntireFile : Str → Option (List UInt8)) :
    ¬ SameResult
      (Command.upload.request (fun _ _ => Buffer.zero) readEntireFile [])
      (Command.upload.request (fun _ _ => Buffer.zero) readEntireFile (ascii "a")) := by
  have none' : strtok [] = [] := rfl
  have tokens : strtok (ascii "a") = [ascii "a"] := by decide
  simp only [Command.request]
  rw [none', tokens, uploadPackets, uploadPackets]
  cases readEntireFile (ascii "a") with
  | none => rintro ⟨⟩
  | some content =>
      intro h
      cases h with
      | ok hpackets =>
          cases hpackets with
          | some hlist =>
              rw [List.append_nil] at hlist
              exact createFileTransferPackets_ne_nil _ _ _ _
                (List.length_eq_zero_iff.mp hlist.length_eq.symm)

/-- One level is sent, the other is refused. -/
theorem not_sameResult_set (readEntireFile : Str → Option (List UInt8)) :
    ¬ SameResult
      (Command.set.request (fun _ _ => Buffer.zero) readEntireFile (ascii "0"))
      (Command.set.request (fun _ _ => Buffer.zero) readEntireFile (ascii "256")) := by
  have zero : atoi (ascii "0") = some 0 := by decide
  have many : atoi (ascii "256") = some 256 := by decide
  simp only [Command.request, PacketController.createSetSettingPacketWrapped]
  rw [zero, many]
  intro h
  cases h with
  | ok hpackets => cases hpackets

theorem not_sameResult_staleTexts (readEntireFile : Str → Option (List UInt8))
    (hoff : C.offset = some off) :
    ¬ SameResult (C.request (fun _ _ => Buffer.zero) readEntireFile C.staleTexts.1)
      (C.request (fun _ _ => Buffer.zero) readEntireFile C.staleTexts.2) := by
  cases C with
  | download => exact not_sameResult_path .reqFileOpen _ fun _ => rfl
  | rm => exact not_sameResult_path _ _ fun _ => rfl
  | mkdir => exact not_sameResult_path _ _ fun _ => rfl
  | cd => exact not_sameResult_path _ _ fun _ => rfl
  | compress => exact not_sameResult_compress readEntireFile
  | login => exact not_sameResult_login readEntireFile
  | upload => exact not_sameResult_upload readEntireFile
  | set => exact not_sameResult_set readEntireFile
  | _ => cases hoff

theorem staleTexts_fit (hoff : C.offset = some off) :
    0 ∉ C.staleTexts.1 ∧ 0 ∉ C.staleTexts.2 ∧ off + C.staleTexts.1.length < sizeofInput ∧
      off + C.staleTexts.2.length < sizeofInput := by
  cases C <;> cases hoff <;> decide

/-- Text behind the line is taken for an argument. -/
theorem LineOnly.pointsInto (only : LineOnly readEntireFile line) (noNul : 0 ∉ line)
    (fits : line.length < sizeofInput) : PointsInto line := by
  intro C off hC hoff
  by_contra hneither
  obtain ⟨hbehind, hset⟩ := not_or.mp hneither
  have hglued : ¬ ascii "setCOMPRESSION_LEVEL=" <+: line := by
    intro hglued
    have hname : ascii Command.set.name <+: line := List.IsPrefix.trans (by decide) hglued
    exact hset ⟨Command.eq_of_names hname hC, hglued⟩
  obtain ⟨hfirst, hsecond, hroom, hroom'⟩ := staleTexts_fit hoff
  exact not_sameResult_staleTexts readEntireFile hoff
    (only.request noNul fits hC hglued hoff (Nat.lt_of_not_le hbehind) (fun _ _ => Buffer.zero)
      hfirst hsecond hroom hroom')

end LineOnly

/-- The line alone says what the parser makes of it, exactly when the argument of its command
begins in the line. The line is one that the array can hold (`noNul`, `fits`); the two runs find
the same files, and differ in what is behind the line and in the memory under their packets. -/
theorem line_only_iff (readEntireFile : Str → Option (List UInt8)) {line : Str}
    (noNul : 0 ∉ line) (fits : line.length < sizeofInput) :
    LineOnly readEntireFile line ↔ PointsInto line :=
  ⟨fun only => only.pointsInto noNul fits, lineOnly_of_pointsInto⟩

theorem line_only_rm : LineOnly (fun _ => none) (ascii "rm x") := by
  refine (line_only_iff _ (by decide) (by decide)).mpr fun C off hC hoff => .inl ?_
  obtain rfl : C = .rm := Command.eq_of_names (by decide) hC
  cases hoff
  decide

/-- `rm`, after `rm a` and after `rm b`. -/
theorem not_line_only :
    HoldsLine (staleBuffer (ascii "rm") 3 (ascii "a")) (ascii "rm") ∧
      HoldsLine (staleBuffer (ascii "rm") 3 (ascii "b")) (ascii "rm") ∧
      ¬ SameResult
        (parseCommandToPackets (fun _ _ => Buffer.zero) (fun _ => none)
          (staleBuffer (ascii "rm") 3 (ascii "a")))
        (parseCommandToPackets (fun _ _ => Buffer.zero) (fun _ => none)
          (staleBuffer (ascii "rm") 3 (ascii "b"))) := by
  have holds : ∀ text, HoldsLine (staleBuffer (ascii "rm") 3 text) (ascii "rm") :=
    holdsLine_staleBuffer (by decide) (by decide) (by decide)
  have parse : ∀ text, 0 ∉ text → 3 + text.length < sizeofInput →
      parseCommandToPackets (fun _ _ => Buffer.zero) (fun _ => none)
          (staleBuffer (ascii "rm") 3 text) =
        Command.rm.request (fun _ _ => Buffer.zero) (fun _ => none) text := by
    intro text htext hroom
    rw [parse_command (C := .rm) (holds text) (by decide) (by decide),
      argument_of_offset (C := .rm) rfl, stringAt_staleBuffer htext hroom]
    rfl
  refine ⟨holds _, holds _, ?_⟩
  rw [parse _ (by decide) (by decide), parse _ (by decide) (by decide)]
  exact not_sameResult_staleTexts (C := .rm) _ rfl

end ConcurrentTcp
