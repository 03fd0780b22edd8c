import ConcurrentTcp.Client.CommandWords

/-!
The input loop (`client/main.cpp`).

`scanf("%1023[^\n]%*c", input)` stores the characters up to the newline, 1023 at most, and
skips one character more. At a newline the first directive fails: nothing is stored, the
newline stays, and the result of `scanf` is not looked at, so that the array is handed over
as it is. The client does not come back from every pass: it ends with undefined behaviour or
an exception in the parser, and waits for a response that does not come. `each_line_once_iff`
says which input is handed over line by line.
-/

namespace ConcurrentTcp

def newline : UInt8 := 10

/-- Each line with its newline. -/
def typedLines (lines : List Str) : List UInt8 := lines.flatMap fun line => line ++ [newline]

/-! ### `scanf` -/

/-- The characters that `%1023[^\n]` matches. -/
def scanItem (pending : List UInt8) : Str := (pending.takeWhile (· ≠ newline)).take 1023

/-- `scanf("%1023[^\n]%*c", input)`: the array and what is left to read, or `none` while it
waits for more. `closed` says that nothing comes behind what is pending. -/
def scanLine (closed : Bool) (input : Buffer) (pending : List UInt8) :
    Option (Buffer × List UInt8) :=
  let item := scanItem pending
  if !closed && item.length = pending.length then none
  else if item = [] then some (input, pending)
  else some (input.write 0 (item ++ [0]), pending.drop (item.length + 1))

/-! ### Passes -/

/-- What a pass of the loop meets: the memory under its packets, the client's files, whether
every response to its packets comes, and what `strtok` leaves of the array. -/
structure ClientPass where
  junk : Nat → Nat → Buffer
  readEntireFile : Str → Option (List UInt8)
  converses : List Buffer → Bool
  leaves : Buffer → Buffer

/-- The body of the loop behind `scanf`, and the array as it is left; `none` when the client
does not come back. -/
def ClientPass.run (pass : ClientPass) (input : Buffer) : Option Buffer :=
  match parseCommandToPackets pass.junk pass.readEntireFile input with
  | .error _ => none
  | .ok none => some (pass.leaves input)
  | .ok (some packets) => if pass.converses packets then some (pass.leaves input) else none

/-- Up to `n` passes of the loop: the arrays that are handed to `parse_command_to_packets`,
and what is left to read. -/
def mainLoop (closed : Bool) :
    (n : Nat) → (Nat → ClientPass) → Buffer → List UInt8 → List Buffer × List UInt8
  | 0, _, _, pending => ([], pending)
  | n + 1, passes, input, pending =>
      match scanLine closed input pending with
      | none => ([], pending)
      | some (input, pending) =>
          match (passes 0).run input with
          | none => ([input], pending)
          | some left =>
              let later := mainLoop closed n (fun i => passes (i + 1)) left pending
              (input :: later.1, later.2)

/-! ### What `scanf` takes -/

section Scan

variable {closed : Bool} {input : Buffer} {line pending : List UInt8}

theorem scanItem_line (hnewline : newline ∉ line) :
    scanItem (line ++ newline :: pending) = line.take 1023 := by
  have hline : ∀ c ∈ line, decide (c ≠ newline) = true := by
    intro c hc
    refine decide_eq_true ?_
    rintro rfl
    exact hnewline hc
  rw [scanItem, List.takeWhile_append_of_pos hline, List.takeWhile_cons_of_neg (by simp),
    List.append_nil]

theorem scanLine_nil : scanLine closed input [] = if closed then some (input, []) else none := by
  cases closed <;> rfl

/-- More than the item is there, so that `scanf` does not wait. -/
theorem scanLine_ready (hlt : (scanItem pending).length < pending.length) :
    scanLine closed input pending =
      if scanItem pending = [] then some (input, pending)
      else some (input.write 0 (scanItem pending ++ [0]),
        pending.drop ((scanItem pending).length + 1)) := by
  unfold scanLine
  dsimp only
  rw [decide_eq_false (Nat.ne_of_lt hlt), Bool.and_false, if_neg (by simp)]

theorem length_scanItem_lt (hnewline : newline ∉ line) :
    (scanItem (line ++ newline :: pending)).length < (line ++ newline :: pending).length := by
  rw [scanItem_line hnewline, List.length_take, List.length_append, List.length_cons]
  omega

theorem scanLine_line (hnewline : newline ∉ line) (hne : line ≠ []) :
    scanLine closed input (line ++ newline :: pending) =
      some (input.write 0 (line.take 1023 ++ [0]),
        (line ++ newline :: pending).drop ((line.take 1023).length + 1)) := by
  have hitem : line.take 1023 ≠ [] := by
    rw [ne_eq, List.take_eq_nil_iff]
    simpa using hne
  rw [scanLine_ready (length_scanItem_lt hnewline), scanItem_line hnewline, if_neg hitem]

/-- A line that fits is stored, and its newline skipped. -/
theorem scanLine_short (hnewline : newline ∉ line) (hne : line ≠ []) (hlen : line.length ≤ 1023) :
    scanLine closed input (line ++ newline :: pending) =
      some (input.write 0 (line ++ [0]), pending) := by
  have hall : line ++ newline :: pending = (line ++ [newline]) ++ pending := by simp
  rw [scanLine_line hnewline hne, List.take_of_length_le hlen, hall,
    List.drop_left' (by simp)]

/-- Of a longer line 1023 characters are stored and one is lost. -/
theorem scanLine_long (hnewline : newline ∉ line) (hlen : 1023 < line.length) :
    scanLine closed input (line ++ newline :: pending) =
      some (input.write 0 (line.take 1023 ++ [0]), line.drop 1024 ++ newline :: pending) := by
  have hne : line ≠ [] := by
    rintro rfl
    simp at hlen
  have htake : (line.take 1023).length + 1 = 1024 := by
    rw [List.length_take]
    omega
  rw [scanLine_line hnewline hne, htake, List.drop_append_of_le_length (by omega)]

/-- An empty line stops the loop where it is. -/
theorem scanLine_empty :
    scanLine closed input (newline :: pending) = some (input, newline :: pending) := by
  have hnewline : newline ∉ ([] : Str) := List.not_mem_nil
  have hitem : scanItem (newline :: pending) = [] := @scanItem_line [] pending hnewline
  have hready := @length_scanItem_lt [] pending hnewline
  rw [List.nil_append] at hready
  rw [scanLine_ready hready, if_pos hitem]

end Scan

/-! ### From pass to pass -/

section Passes

variable {passes : Nat → ClientPass} {closed : Bool} {input input' left : Buffer}
  {pending pending' : List UInt8}

/-- The client comes back from the first pass. -/
theorem mainLoop_comesBack (n : Nat) (h : scanLine closed input pending = some (input', pending'))
    (back : (passes 0).run input' = some left) :
    mainLoop closed (n + 1) passes input pending =
      (input' :: (mainLoop closed n (fun i => passes (i + 1)) left pending').1,
        (mainLoop closed n (fun i => passes (i + 1)) left pending').2) := by
  rw [mainLoop, h]
  dsimp only
  rw [back]

/-- It ends in the first pass. -/
theorem mainLoop_ends (n : Nat) (h : scanLine closed input pending = some (input', pending'))
    (ends : (passes 0).run input' = none) :
    mainLoop closed (n + 1) passes input pending = ([input'], pending') := by
  rw [mainLoop, h]
  dsimp only
  rw [ends]

/-- The first pass hands its array over, whether the client comes back or not. -/
theorem mainLoop_one (h : scanLine closed input pending = some (input', pending')) :
    mainLoop closed 1 passes input pending = ([input'], pending') := by
  cases hrun : (passes 0).run input' with
  | none => exact mainLoop_ends 0 h hrun
  | some left => exact mainLoop_comesBack 0 h hrun

/-- The loop waits for a line. -/
theorem mainLoop_wait (n : Nat) (passes : Nat → ClientPass) (input : Buffer) :
    mainLoop false n passes input [] = ([], []) := by
  cases n with
  | zero => rfl
  | succ n => rfl

/-- Where `scanf` takes nothing the loop stays, and hands over what the array holds again and
again, as long as the client comes back and leaves it. -/
theorem mainLoop_stuck (stuck : scanLine closed input pending = some (input, pending))
    (back : ∀ i, (passes i).run input = some input) (n : Nat) :
    mainLoop closed n passes input pending = (List.replicate n input, pending) := by
  induction n generalizing passes with
  | zero => rfl
  | succ n ih =>
      rw [mainLoop_comesBack n stuck (back 0), ih fun i => back (i + 1), List.replicate_succ]

theorem mainLoop_empty (back : ∀ i, (passes i).run input = some input) (n : Nat)
    (pending : List UInt8) :
    mainLoop closed n passes input (newline :: pending) =
      (List.replicate n input, newline :: pending) :=
  mainLoop_stuck scanLine_empty back n

/-- The loop does not end with the input. -/
theorem mainLoop_closed (back : ∀ i, (passes i).run input = some input) (n : Nat) :
    mainLoop true n passes input [] = (List.replicate n input, []) :=
  mainLoop_stuck scanLine_nil back n

end Passes

/-! ### Coming back -/

/-- The parser comes back from a line: it refuses it, or makes a request of the argument that
the command of the line finds. -/
def Parses (readEntireFile : Str → Option (List UInt8)) (input : Buffer) (line : Str) : Prop :=
  ∀ C : Command, ascii C.name <+: line →
    ascii "setCOMPRESSION_LEVEL=" <+: line ∨
      (∃ text, C.argument input = .ok text ∧ C.Accepts readEntireFile text) ∨
      C = .set ∧ RefusesText input

/-- The client comes back: also every response to the packets comes. -/
structure ClientPass.ComesBack (pass : ClientPass) (input : Buffer) (line : Str) : Prop where
  parses : Parses pass.readEntireFile input line
  converses : ∀ packets, parseCommandToPackets pass.junk pass.readEntireFile input =
    .ok (some packets) → pass.converses packets = true

section ComesBack

variable {junk : Nat → Nat → Buffer} {readEntireFile : Str → Option (List UInt8)}
  {pass : ClientPass} {input : Buffer} {line : Str}

variable (junk) in
theorem parses_iff (h : HoldsLine input line) :
    (∃ result, parseCommandToPackets junk readEntireFile input = .ok result) ↔
      Parses readEntireFile input line := by
  by_cases hglued : ascii "setCOMPRESSION_LEVEL=" <+: line
  · exact iff_of_true ⟨none, parse_glued h hglued⟩ fun C _ => .inl hglued
  by_cases hany : ∃ C : Command, ascii C.name <+: line
  · obtain ⟨C, hC⟩ := hany
    rw [parse_command h hC hglued]
    constructor
    · rintro ⟨result, hresult⟩ D hD
      obtain rfl := Command.eq_of_names hC hD
      cases htext : D.argument input with
      | error fault =>
          rw [htext] at hresult
          cases hresult
      | ok text =>
          rw [htext] at hresult
          have hrequest : D.request junk readEntireFile text = .ok result := hresult
          cases result with
          | some packets => exact .inr (.inl ⟨text, rfl, accepts_iff.mp ⟨packets, hrequest⟩⟩)
          | none =>
              obtain rfl : D = .set := (request_none_iff.mp hrequest).1
              exact .inr (.inr ⟨rfl,
                (refusesText_iff junk readEntireFile).mpr ⟨text, htext, hrequest⟩⟩)
    · intro parses
      rcases (parses C hC).resolve_left hglued with ⟨text, htext, accepts⟩ | ⟨rfl, refuses⟩
      · obtain ⟨packets, hpackets⟩ := accepts_iff.mpr accepts
        exact ⟨some packets, by rw [htext]; exact hpackets⟩
      · obtain ⟨text, htext, hnone⟩ := (refusesText_iff junk readEntireFile).mp refuses
        exact ⟨none, by rw [htext]; exact hnone⟩
  · exact iff_of_true ⟨none, parse_other h (not_exists.mp hany)⟩ fun C hC => absurd ⟨C, hC⟩ hany

theorem ClientPass.ComesBack.run (back : pass.ComesBack input line) (h : HoldsLine input line) :
    pass.run input = some (pass.leaves input) := by
  obtain ⟨result, hresult⟩ := (parses_iff pass.junk h).mpr back.parses
  unfold ClientPass.run
  cases result with
  | none => rw [hresult]
  | some packets =>
      rw [hresult]
      exact if_pos (back.converses packets hresult)

theorem ClientPass.run_eq_none (h : HoldsLine input line) (stays : ¬ pass.ComesBack input line) :
    pass.run input = none := by
  unfold ClientPass.run
  cases hresult : parseCommandToPackets pass.junk pass.readEntireFile input with
  | error fault => rfl
  | ok result =>
      have parses := (parses_iff pass.junk h).mp ⟨result, hresult⟩
      cases result with
      | none => exact absurd ⟨parses, fun packets hpackets => by cases hresult ▸ hpackets⟩ stays
      | some packets =>
          refine if_neg fun converses => stays ⟨parses, fun packets' hpackets => ?_⟩
          cases hresult ▸ hpackets
          exact converses

end ComesBack

/-! ### Each line once -/

/-- Lines are handed over whole and in order; an empty line is not, and one that does not
fit may be refused. -/
inductive HandedOver : List Buffer → List Str → Prop where
  | nil : HandedOver [] []
  | empty {handed : List Buffer} {lines : List Str} :
      HandedOver handed lines → HandedOver handed ([] :: lines)
  | whole {input : Buffer} {line : Str} {handed : List Buffer} {lines : List Str} :
      line ≠ [] → HoldsLine input line → HandedOver handed lines →
      HandedOver (input :: handed) (line :: lines)
  | refused {line : Str} {handed : List Buffer} {lines : List Str} :
      1023 < line.length → HandedOver handed lines → HandedOver handed (line :: lines)

/-- After any number of passes the lines up to some newline have been handed over, and the
input is consumed up to there; and all of it is consumed in the end. -/
structure EachLineOnce (passes : Nat → ClientPass) (closed : Bool) (input : Buffer)
    (lines : List Str) : Prop where
  handedOver : ∀ n, ∃ done rest, lines = done ++ rest ∧
    HandedOver (mainLoop closed n passes input (typedLines lines)).1 done ∧
    (mainLoop closed n passes input (typedLines lines)).2 = typedLines rest
  consumed : ∃ n, (mainLoop closed n passes input (typedLines lines)).2 = []

/-- A line that fits the array, and is none to `scanf` or as a C string before its end. -/
def PlainLine (line : Str) : Prop := 1 ≤ line.length ∧ line.length ≤ 1023 ∧ 0 ∉ line

/-- The array with a line that fits. -/
def withLine (input : Buffer) (line : Str) : Buffer := input.write 0 (line ++ [0])

/-- Every line is plain, and the client comes back from all but the last. Behind the last line
the input stays open, unless the client does not come back from it. -/
def KeepsUp (closed : Bool) : (Nat → ClientPass) → Buffer → List Str → Prop
  | _, _, [] => closed = false
  | passes, input, line :: lines =>
      PlainLine line ∧
        ((passes 0).ComesBack (withLine input line) line →
          KeepsUp closed (fun i => passes (i + 1)) ((passes 0).leaves (withLine input line))
            lines) ∧
        (¬ (passes 0).ComesBack (withLine input line) line → lines = [])

theorem typedLines_cons (line : Str) (lines : List Str) :
    typedLines (line :: lines) = line ++ newline :: typedLines lines := by
  simp [typedLines]

theorem holdsLine_write {line : Str} (input : Buffer) (noNul : 0 ∉ line)
    (hlen : line.length ≤ 1023) : HoldsLine (withLine input line) line where
  noNul := noNul
  fits := Nat.lt_succ_of_le hlen
  stored := by
    have hread := Buffer.read_write input 0 (line ++ [0])
    rwa [List.length_append, List.length_singleton] at hread

section Lines

variable {passes : Nat → ClientPass} {closed : Bool} {input : Buffer} {line : Str}
  {lines : List Str}

/-- Without lines, the array of the start is handed over if the input ends. -/
theorem eachLineOnce_nil_iff : EachLineOnce passes closed input [] ↔ closed = false := by
  constructor
  · intro once
    obtain ⟨done, rest, hlines, handed, -⟩ := once.handedOver 1
    obtain ⟨rfl, rfl⟩ := List.append_eq_nil_iff.mp hlines.symm
    cases closed with
    | false => rfl
    | true =>
        have ended : mainLoop true 1 passes input [] = ([input], []) := mainLoop_one scanLine_nil
        rw [typedLines, List.flatMap_nil, ended] at handed
        cases handed
  · rintro rfl
    have waits : ∀ n, mainLoop false n passes input (typedLines []) = ([], []) :=
      fun n => mainLoop_wait n passes input
    refine ⟨fun n => ⟨[], [], rfl, ?_, ?_⟩, 0, rfl⟩
    · rw [waits]
      exact .nil
    · rw [waits]
      rfl

theorem scanLine_plain (hnewline : newline ∉ line) (plain : PlainLine line) :
    scanLine closed input (typedLines (line :: lines)) =
      some (withLine input line, typedLines lines) := by
  rw [typedLines_cons]
  exact scanLine_short hnewline (List.ne_nil_of_length_pos plain.1) plain.2.1

theorem typedLines_eq_nil_iff : typedLines lines = [] ↔ lines = [] := by
  cases lines with
  | nil => exact iff_of_true rfl rfl
  | cons line lines => rw [typedLines_cons]; simp

/-- One pass takes a plain line off the front. -/
theorem mainLoop_line {left : Buffer} (hnewline : newline ∉ line) (plain : PlainLine line)
    (back : (passes 0).run (withLine input line) = some left) (n : Nat) :
    mainLoop closed (n + 1) passes input (typedLines (line :: lines)) =
      (withLine input line ::
          (mainLoop closed n (fun i => passes (i + 1)) left (typedLines lines)).1,
        (mainLoop closed n (fun i => passes (i + 1)) left (typedLines lines)).2) :=
  mainLoop_comesBack n (scanLine_plain hnewline plain) back

/-- The client that does not come back from a plain line has taken that line. -/
theorem mainLoop_lastLine (hnewline : newline ∉ line) (plain : PlainLine line)
    (ends : (passes 0).run (withLine input line) = none) (n : Nat) :
    mainLoop closed (n + 1) passes input (typedLines (line :: lines)) =
      ([withLine input line], typedLines lines) :=
  mainLoop_ends n (scanLine_plain hnewline plain) ends

/-- The client comes back from a plain line, and goes on with the others. -/
theorem eachLineOnce_cons_iff {left : Buffer} (hnewline : newline ∉ line) (plain : PlainLine line)
    (back : (passes 0).run (withLine input line) = some left) :
    EachLineOnce passes closed input (line :: lines) ↔
      EachLineOnce (fun i => passes (i + 1)) closed left lines := by
  have hne : line ≠ [] := List.ne_nil_of_length_pos plain.1
  have holds : HoldsLine (withLine input line) line := holdsLine_write input plain.2.2 plain.2.1
  constructor
  · intro once
    refine ⟨fun n => ?_, ?_⟩
    · obtain ⟨done, rest, hlines, handed, hpending⟩ := once.handedOver (n + 1)
      rw [mainLoop_line hnewline plain back] at handed hpending
      cases handed with
      | empty => exact absurd (List.cons.inj hlines).1 hne
      | whole _ _ later => exact ⟨_, rest, (List.cons.inj hlines).2, later, hpending⟩
      | refused hlong =>
          obtain rfl := (List.cons.inj hlines).1
          have hlen := plain.2.1
          omega
    · obtain ⟨n, hn⟩ := once.consumed
      cases n with
      | zero => exact absurd (typedLines_eq_nil_iff.mp hn) (List.cons_ne_nil _ _)
      | succ n =>
          rw [mainLoop_line hnewline plain back] at hn
          exact ⟨n, hn⟩
  · intro once
    refine ⟨fun n => ?_, ?_⟩
    · cases n with
      | zero => exact ⟨[], line :: lines, rfl, .nil, rfl⟩
      | succ n =>
          obtain ⟨done, rest, hlines, handed, hpending⟩ := once.handedOver n
          rw [mainLoop_line hnewline plain back]
          exact ⟨line :: done, rest, by rw [hlines]; rfl, .whole hne holds handed, hpending⟩
    · obtain ⟨n, hn⟩ := once.consumed
      exact ⟨n + 1, by rw [mainLoop_line hnewline plain back]; exact hn⟩

/-- Where the client does not come back from a plain line, that must be the last one. -/
theorem eachLineOnce_ended_iff (hnewline : newline ∉ line) (plain : PlainLine line)
    (ends : (passes 0).run (withLine input line) = none) :
    EachLineOnce passes closed input (line :: lines) ↔ lines = [] := by
  have hne : line ≠ [] := List.ne_nil_of_length_pos plain.1
  have holds : HoldsLine (withLine input line) line := holdsLine_write input plain.2.2 plain.2.1
  constructor
  · intro once
    obtain ⟨n, hn⟩ := once.consumed
    cases n with
    | zero => exact absurd (typedLines_eq_nil_iff.mp hn) (List.cons_ne_nil _ _)
    | succ n =>
        rw [mainLoop_lastLine hnewline plain ends] at hn
        exact typedLines_eq_nil_iff.mp hn
  · rintro rfl
    refine ⟨fun n => ?_, 1, by rw [mainLoop_lastLine hnewline plain ends]; rfl⟩
    cases n with
    | zero => exact ⟨[], [line], rfl, .nil, rfl⟩
    | succ n =>
        rw [mainLoop_lastLine hnewline plain ends]
        exact ⟨[line], [], rfl, .whole hne holds .nil, rfl⟩

theorem length_typedLines_le {done rest : List Str} (h : lines = done ++ rest) :
    (typedLines rest).length ≤ (typedLines lines).length := by
  rw [h, typedLines, typedLines, List.flatMap_append, List.length_append]
  exact Nat.le_add_left _ _

/-- What the first pass hands over is the first line, and that is behind it. -/
theorem EachLineOnce.first_pass (once : EachLineOnce passes closed input (line :: lines))
    {input' : Buffer} {pending' : List UInt8}
    (pass : scanLine closed input (typedLines (line :: lines)) = some (input', pending')) :
    pending'.length ≤ (typedLines lines).length ∧
      (line = [] ∨ HoldsLine input' line ∨ 1023 < line.length) := by
  obtain ⟨done, rest, hlines, handed, hpending⟩ := once.handedOver 1
  rw [mainLoop_one pass] at handed hpending
  have hrest : pending' = typedLines rest := hpending
  rcases List.cons_eq_append_iff.mp hlines with ⟨rfl, -⟩ | ⟨later, rfl, hlater⟩
  · cases handed
  · refine ⟨hrest ▸ length_typedLines_le hlater, ?_⟩
    cases handed with
    | empty => exact .inl rfl
    | whole _ holds => exact .inr (.inl holds)
    | refused hlong => exact .inr (.inr hlong)

theorem EachLineOnce.plain (once : EachLineOnce passes closed input (line :: lines))
    (hnewline : newline ∉ line) : PlainLine line := by
  by_cases hne : line = []
  · subst hne
    have pass : scanLine closed input (typedLines ([] :: lines)) =
        some (input, newline :: typedLines lines) := scanLine_empty
    have hshort := (once.first_pass pass).1
    rw [List.length_cons] at hshort
    omega
  by_cases hlen : line.length ≤ 1023
  · have pass : scanLine closed input (typedLines (line :: lines)) =
        some (input.write 0 (line ++ [0]), typedLines lines) := by
      rw [typedLines_cons]
      exact scanLine_short hnewline hne hlen
    rcases (once.first_pass pass).2 with hempty | holds | hlong
    · exact absurd hempty hne
    · exact ⟨List.length_pos_of_ne_nil hne, hlen, holds.noNul⟩
    · omega
  · have pass : scanLine closed input (typedLines (line :: lines)) =
        some (input.write 0 (line.take 1023 ++ [0]),
          line.drop 1024 ++ newline :: typedLines lines) := by
      rw [typedLines_cons]
      exact scanLine_long hnewline (by omega)
    have hshort := (once.first_pass pass).1
    rw [List.length_append, List.length_cons] at hshort
    omega

end Lines

/-- The input is handed over line by line, exactly when every line has between 1 and 1023
characters, none of them NUL, the client comes back from all lines but the last, and behind the
last line it waits or has ended. Of the passes nothing is assumed: memory, files, responses and
what `strtok` leaves of the array can differ from one to the next. -/
theorem each_line_once_iff (passes : Nat → ClientPass) (closed : Bool) (input : Buffer)
    {lines : List Str} (hnewline : ∀ line ∈ lines, newline ∉ line) :
    EachLineOnce passes closed input lines ↔ KeepsUp closed passes input lines := by
  induction lines generalizing passes input with
  | nil => exact eachLineOnce_nil_iff
  | cons line lines ih =>
      obtain ⟨hline, hlines⟩ := List.forall_mem_cons.mp hnewline
      have step : PlainLine line → (EachLineOnce passes closed input (line :: lines) ↔
          ((passes 0).ComesBack (withLine input line) line →
            KeepsUp closed (fun i => passes (i + 1)) ((passes 0).leaves (withLine input line))
              lines) ∧
          (¬ (passes 0).ComesBack (withLine input line) line → lines = [])) := by
        intro plain
        have holds := holdsLine_write input plain.2.2 plain.2.1
        by_cases back : (passes 0).ComesBack (withLine input line) line
        · rw [eachLineOnce_cons_iff hline plain (back.run holds), ih _ _ hlines]
          simp [back]
        · rw [eachLineOnce_ended_iff hline plain (ClientPass.run_eq_none holds back)]
          simp [back]
      constructor
      · intro once
        have plain := once.plain hline
        exact ⟨plain, (step plain).mp once⟩
      · rintro ⟨plain, later⟩
        exact (step plain).mpr later

/-! ### A terminal -/

/-- There are no files, and every response comes. -/
def examplePass : ClientPass where
  junk := fun _ _ => Buffer.zero
  readEntireFile := fun _ => none
  converses := fun _ => true
  leaves := id

/-- From a command whose argument is accepted the client comes back. -/
theorem examplePass_comesBack {input : Buffer} {line text : Str} {C : Command}
    (hC : ascii C.name <+: line) (htext : C.argument input = .ok text)
    (accepts : C.Accepts (fun _ => none) text) : examplePass.ComesBack input line where
  parses D hD := by
    obtain rfl := Command.eq_of_names hC hD
    exact .inr (.inl ⟨text, htext, accepts⟩)
  converses _ _ := rfl

/-- Two commands from a terminal. -/
theorem each_line_once_two :
    EachLineOnce (fun _ => examplePass) false Buffer.zero [ascii "cwd", ascii "mkdir a b"] := by
  have first : examplePass.ComesBack (withLine Buffer.zero (ascii "cwd")) (ascii "cwd") :=
    examplePass_comesBack (C := .cwd) (by decide) rfl trivial
  refine (each_line_once_iff _ false Buffer.zero (by decide)).mpr ⟨?_, fun _ => ⟨?_, ?_, ?_⟩, ?_⟩
  · simp only [PlainLine]
    decide
  · simp only [PlainLine]
    decide
  · exact fun _ => rfl
  · exact fun _ => rfl
  · exact fun stays => absurd first stays

/-- An empty line after a command: the command is handed over again in every pass. -/
theorem not_each_line_once :
    ¬ EachLineOnce (fun _ => examplePass) false Buffer.zero [ascii "ping", []] ∧
      ∃ input, HoldsLine input (ascii "ping") ∧
        ∀ n, (mainLoop false (n + 1) (fun _ => examplePass) Buffer.zero
          (typedLines [ascii "ping", []])).1 = input :: List.replicate n input := by
  have hnewline : newline ∉ ascii "ping" := by decide
  have plain : PlainLine (ascii "ping") := by
    simp only [PlainLine]
    decide
  have holds : HoldsLine (withLine Buffer.zero (ascii "ping")) (ascii "ping") :=
    holdsLine_write Buffer.zero plain.2.2 plain.2.1
  have back : examplePass.run (withLine Buffer.zero (ascii "ping")) =
      some (withLine Buffer.zero (ascii "ping")) :=
    (examplePass_comesBack (C := .ping) (by decide) rfl trivial).run holds
  refine ⟨fun once => ?_, _, holds, fun n => ?_⟩
  · have later := ((eachLineOnce_cons_iff hnewline plain back).mp once).plain List.not_mem_nil
    exact absurd later.1 (by decide)
  · rw [mainLoop_line hnewline plain back]
    exact congrArg (_ :: ·.1) (mainLoop_empty (fun _ => back) n [])

end ConcurrentTcp
