import ConcurrentTcp.Client.TypedRequests

/-!
The set command from the line to the compression level.

The client takes a line that does not begin with the setting for one that does, skips one
character more than the setting has, and sends a packet whose `setting` it never sets. The
space behind the word makes up for the first two: `set_command_iff` says for which lines, and
for which byte in the place of the setting, the command does what it should.
-/

namespace ConcurrentTcp

open Interaction

/-- The lines of the command: a decimal number that fits a byte. -/
def SetLine (line : Str) (n : Nat) : Prop :=
  ∃ digits, line = ascii "set COMPRESSION_LEVEL=" ++ digits ∧ digits ≠ [] ∧
    (∀ d ∈ digits, isDigit d = true) ∧ decimal digits = n ∧ n ≤ 255

theorem SetLine.le_byte {line : Str} {n : Nat} (typed : SetLine line n) : n ≤ 255 := by
  obtain ⟨-, -, -, -, -, hn⟩ := typed
  exact hn

/-- The settings are answered with the level. -/
def ReportsLevel (g : GlobalState) (n : Nat) : Prop :=
  ∀ s : HandlerState, s.g = g → s.session.isAdmin = true →
    ∀ events out, Exec (reqGetSettings s) events out →
      ∃ frame : List UInt8, events = [⟨.send frame, ()⟩] ∧ frame[4]? = some (UInt8.ofNat n)

/-- The handler sets the level for an admin, when the packet is in the receive buffer. -/
def SetsLevel (packet : Buffer) (n : Nat) : Prop :=
  ∀ (c : ConnId) (s : HandlerState), s.session.isAdmin = true →
    ∀ events out, Exec (reqSetSetting (ConnectionBuffer.buffer ⟨c, packet.frame⟩) s) events out →
      ∃ t, out = .ok t ∧ t.g.compressionLevel.toNat = n ∧ ReportsLevel t.g n

/-- A line of the command becomes a packet that sets the level, and no other line becomes
one. -/
structure SetCommandWorks (junk input : Buffer) (line : Str) : Prop where
  accepts : ∀ n, SetLine line n →
    ∃ packet, createSetSettingPacket junk input 3 = .ok (some packet) ∧ SetsLevel packet n
  refuses : (¬ ∃ n, SetLine line n) → createSetSettingPacket junk input 3 = .ok none

/-- What is read for the value is no number of a byte. -/
def RefusesText (input : Buffer) : Prop :=
  ∃ text value, stringAt input 22 = .ok text ∧ atoi text = some value ∧ (value > 255 ∨ value < 0)

/-! ### Numbers -/

theorem isDigit_bounds {d : UInt8} (h : isDigit d = true) : 48 ≤ d.toNat ∧ d.toNat ≤ 57 := by
  simpa [isDigit, UInt8.le_iff_toNat_le] using h

/-- A digit is neither white space nor a sign. -/
theorem isSpace_of_isDigit {d : UInt8} (h : isDigit d = true) :
    isSpace d = false ∧ d ≠ 45 ∧ d ≠ 43 := by
  obtain ⟨hlow, -⟩ := isDigit_bounds h
  refine ⟨?_, ?_, ?_⟩
  · rw [Bool.eq_false_iff]
    intro hspace
    simp only [isSpace, Bool.or_eq_true, decide_eq_true_eq, Bool.and_eq_true,
      UInt8.le_iff_toNat_le] at hspace
    rcases hspace with rfl | ⟨-, hle⟩
    · exact absurd hlow (by decide)
    · simp at hle
      omega
  · rintro rfl
    exact absurd hlow (by decide)
  · rintro rfl
    exact absurd hlow (by decide)

/-- `atoi` of digits. -/
theorem atoi_digits {digits : Str} (hne : digits ≠ []) (hdigits : ∀ d ∈ digits, isDigit d = true)
    (hvalue : decimal digits ≤ 255) : atoi digits = some (decimal digits : Int) := by
  have hall : digits.takeWhile isDigit = digits := List.takeWhile_eq_self_iff.mpr hdigits
  have hbound : -2 ^ 31 ≤ (decimal digits : Int) ∧ (decimal digits : Int) < 2 ^ 31 := by omega
  cases digits with
  | nil => exact absurd rfl hne
  | cons d rest =>
      obtain ⟨hspace, hminus, hplus⟩ := isSpace_of_isDigit (hdigits d List.mem_cons_self)
      have htext : (d :: rest).dropWhile isSpace = d :: rest :=
        List.dropWhile_cons_of_neg (by rw [hspace]; exact Bool.false_ne_true)
      unfold atoi
      rw [htext]
      dsimp only
      split
      · rename_i heq
        cases heq
        exact absurd rfl hminus
      · rename_i heq
        cases heq
        exact absurd rfl hplus
      · rw [hall, if_pos hbound]

/-! ### The packet -/

theorem createSetSettingPacketWrapped_none_iff (junk : Buffer) {text : Str} :
    PacketController.createSetSettingPacketWrapped junk text = .ok none ↔
      ∃ value, atoi text = some value ∧ (value > 255 ∨ value < 0) := by
  rw [PacketController.createSetSettingPacketWrapped]
  cases atoi text with
  | none => simp
  | some value =>
      by_cases hout : value > 255 ∨ value < 0
      · exact iff_of_true (if_pos hout) ⟨value, rfl, hout⟩
      · refine iff_of_false ?_ ?_
        · dsimp only
          rw [if_neg hout]
          rintro ⟨⟩
        · rintro ⟨other, hother, hbounds⟩
          exact hout (Option.some.inj hother ▸ hbounds)

theorem createSetSettingPacketWrapped_some_iff (junk : Buffer) {text : Str} :
    (∃ packet, PacketController.createSetSettingPacketWrapped junk text = .ok (some packet)) ↔
      ∃ value, atoi text = some value ∧ ¬ (value > 255 ∨ value < 0) := by
  rw [PacketController.createSetSettingPacketWrapped]
  cases atoi text with
  | none => simp
  | some value =>
      by_cases hout : value > 255 ∨ value < 0
      · refine iff_of_false ?_ ?_
        · dsimp only
          rw [if_pos hout]
          rintro ⟨_, ⟨⟩⟩
        · rintro ⟨other, hother, hin⟩
          exact hin (Option.some.inj hother ▸ hout)
      · exact iff_of_true ⟨_, if_neg hout⟩ ⟨value, rfl, hout⟩

/-! ### The effect -/

/-- The settings response has the level behind its header. -/
theorem reportsLevel (g : GlobalState) : ReportsLevel g g.compressionLevel.toNat := by
  rintro s rfl hadmin events out run
  have hsend : reqGetSettings s =
      s.respond (createSettingsRespPacket s.g s.tls) sizeofPacketFileList := by
    rw [reqGetSettings, hadmin]
    rfl
  rw [hsend] at run
  obtain ⟨rfl, -⟩ := exec_respond_iff.mp run
  refine ⟨_, rfl, ?_⟩
  rw [Buffer.getElem?_read _ _ (by decide), UInt8.ofNat_toNat]
  simp [createSettingsRespPacket, Buffer.setHeader, Buffer.write, le16]

/-- The packet that is sent for a value. -/
def setPacket (junk : Buffer) (n : Nat) : Buffer :=
  (junk.setHeader .reqSetSetting sizeofSetSettingPacket).write 5 [UInt8.ofNat n]

/-- What the handler reads of it. -/
theorem parseSeting_setPacket (junk : Buffer) (n : Nat) (c : ConnId) (g : GlobalState) :
    parseSetingPacketAndSet
        (SetSettingPacket.decode (ConnectionBuffer.buffer ⟨c, (setPacket junk n).frame⟩)) g =
      if junk 4 = 0 then { g with compressionLevel := UInt8.ofNat n } else g := by
  have hsize : (setPacket junk n).totalSize = sizeofSetSettingPacket := by
    rw [setPacket, Buffer.totalSize_write _ (by decide), Buffer.totalSize_setHeader]
    rfl
  have hbyte : ∀ i < 14, ConnectionBuffer.buffer ⟨c, (setPacket junk n).frame⟩ i =
      setPacket junk n i := fun i hi => buffer_frame (by rw [hsize]; exact hi)
  have hsetting : setPacket junk n 4 = junk 4 := by
    rw [setPacket, Buffer.write_of_lt _ _ _ (by decide), Buffer.setHeader_of_le _ _ _ (by decide)]
  have hvalue : setPacket junk n 5 = UInt8.ofNat n := by simp [setPacket, Buffer.write]
  have hdecoded : (SetSettingPacket.decode
      (ConnectionBuffer.buffer ⟨c, (setPacket junk n).frame⟩)).setting = junk 4 :=
    (hbyte 4 (by decide)).trans hsetting
  have hread : (SetSettingPacket.decode
      (ConnectionBuffer.buffer ⟨c, (setPacket junk n).frame⟩)).value.getD 0 0 = UInt8.ofNat n := by
    rw [SetSettingPacket.decode, List.getD_eq_getElem?_getD,
      Buffer.getElem?_read _ _ (by decide), Option.getD_some]
    exact (hbyte 5 (by decide)).trans hvalue
  simp only [parseSetingPacketAndSet, hdecoded, hread, settingCompressionLevel]

/-- The level is set exactly when the byte of the setting happens to be right. -/
theorem setsLevel_iff {junk : Buffer} {n : Nat} (hn : n ≤ 255) :
    SetsLevel (setPacket junk n) n ↔ junk 4 = 0 := by
  have handler (c : ConnId) {s : HandlerState} (hadmin : s.session.isAdmin = true) :
      reqSetSetting (ConnectionBuffer.buffer ⟨c, (setPacket junk n).frame⟩) s =
        sendSampleResp { s with
          g := if junk 4 = 0 then { s.g with compressionLevel := UInt8.ofNat n } else s.g }
          .respOk := by
    rw [reqSetSetting, hadmin]
    simp [parseSeting_setPacket]
  have hlevel : (UInt8.ofNat n).toNat = n :=
    UInt8.toNat_ofNat_of_lt (Nat.lt_of_le_of_lt hn (by decide))
  constructor
  · intro sets
    by_contra hsetting
    -- an admin finds another level, and leaves it
    let s : HandlerState :=
      { session := { Session.accepted 5 with isAdmin := true }
        g := { GlobalState.initial with compressionLevel := UInt8.ofNat (n + 1) }
        tls := Buffer.zero }
    have hadmin : s.session.isAdmin = true := rfl
    have sent := handler 0 hadmin
    rw [if_neg hsetting] at sent
    obtain ⟨t, hend, ht, -⟩ := sets 0 s hadmin _ _
      (by rw [sent]; exact exec_sendSampleResp_iff.mpr ⟨rfl, rfl⟩)
    cases hend
    have hother : (UInt8.ofNat (n + 1)).toNat = n := ht
    rw [UInt8.toNat_ofNat'] at hother
    omega
  · intro hsetting c s hadmin events out run
    rw [handler c hadmin, if_pos hsetting] at run
    obtain ⟨-, rfl⟩ := exec_sendSampleResp_iff.mp run
    refine ⟨_, rfl, hlevel, ?_⟩
    have reports := reportsLevel { s.g with compressionLevel := UInt8.ofNat n }
    rwa [hlevel] at reports

/-! ### The line -/

section Line

variable {input : Buffer} {line : Str} {n : Nat}

/-- The value is read where it is, since the text begins with the space. -/
theorem createSetSettingPacket_of_setLine (junk : Buffer) (h : HoldsLine input line)
    (typed : SetLine line n) :
    createSetSettingPacket junk input 3 = .ok (some (setPacket junk n)) := by
  obtain ⟨digits, rfl, hne, hdigits, rfl, hn⟩ := typed
  have hspace : input.read 3 18 ≠ ascii "COMPRESSION_LEVEL=" := by
    intro heq
    have hfirst : input 3 = 67 := congrArg (fun bytes => bytes.getD 0 0) heq
    rw [h.byte (by simp [ascii])] at hfirst
    have hthird : (ascii "set COMPRESSION_LEVEL=" ++ digits ++ [0]).getD 3 0 = 32 := rfl
    rw [hthird] at hfirst
    exact absurd hfirst (by decide)
  have htext : stringAt input 22 = .ok digits := h.argument
  have hvalue := atoi_digits hne hdigits hn
  simp only [createSetSettingPacket, if_pos hspace, htext, bind, Except.bind,
    PacketController.createSetSettingPacketWrapped, hvalue]
  rw [if_neg (by omega)]
  rfl

/-- The text is that of the setting when the line has it right behind the word. -/
theorem read_setting_iff (h : HoldsLine input line) (hset : ascii "set" <+: line) :
    input.read 3 18 = ascii "COMPRESSION_LEVEL=" ↔ ascii "setCOMPRESSION_LEVEL=" <+: line := by
  have hstarts : startsWith input "set" = true := (h.startsWith_iff (by decide)).mpr hset
  have hword : input.read 0 3 = ascii "set" := of_decide_eq_true hstarts
  have hsplit : ascii "setCOMPRESSION_LEVEL=" = ascii "set" ++ ascii "COMPRESSION_LEVEL=" := by
    decide
  rw [← h.startsWith_iff (by decide), startsWith, decide_eq_true_iff]
  have hlength : (ascii "setCOMPRESSION_LEVEL=").length = 3 + 18 := by decide
  rw [hlength, Buffer.read_add, hword, hsplit, List.append_right_inj]

/-- The lines of which no packet is made. -/
theorem createSetSettingPacket_none_iff (junk : Buffer) (h : HoldsLine input line)
    (hset : ascii "set" <+: line) :
    createSetSettingPacket junk input 3 = .ok none ↔
      ascii "setCOMPRESSION_LEVEL=" <+: line ∨ RefusesText input := by
  rw [← read_setting_iff h hset]
  by_cases hread : input.read 3 18 = ascii "COMPRESSION_LEVEL="
  · refine iff_of_true ?_ (.inl hread)
    rw [createSetSettingPacket, if_neg (not_not.mpr hread)]
  · rw [createSetSettingPacket, if_pos hread]
    cases htext : stringAt input 22 with
    | error fault =>
        refine iff_of_false nofun ?_
        rintro (heq | ⟨text, value, hstring, -⟩)
        · exact hread heq
        · rw [htext] at hstring
          cases hstring
    | ok text =>
        have hrefuses : RefusesText input ↔ ∃ value, atoi text = some value ∧
            (value > 255 ∨ value < 0) := by
          simp only [RefusesText, htext, Except.ok.injEq]
          constructor
          · rintro ⟨_, value, rfl, hvalue⟩
            exact ⟨value, hvalue⟩
          · rintro ⟨value, hvalue⟩
            exact ⟨text, value, rfl, hvalue⟩
        rw [hrefuses, or_iff_right hread]
        exact createSetSettingPacketWrapped_none_iff junk

end Line

/-- For every line that begins with the word, and every content of the packet: the command works
exactly when the line is a setting in the documented form and the byte of its id happens to be 0,
or it is no such line and the parser refuses it. -/
theorem set_command_iff (junk : Buffer) {input : Buffer} {line : Str} (h : HoldsLine input line)
    (hset : ascii "set" <+: line) :
    SetCommandWorks junk input line ↔
      (∃ n, SetLine line n) ∧ junk 4 = 0 ∨
        (¬ ∃ n, SetLine line n) ∧
          (ascii "setCOMPRESSION_LEVEL=" <+: line ∨ RefusesText input) := by
  rw [← createSetSettingPacket_none_iff junk h hset]
  constructor
  · rintro ⟨accepts, refuses⟩
    by_cases hline : ∃ n, SetLine line n
    · obtain ⟨n, typed⟩ := hline
      obtain ⟨packet, hpacket, sets⟩ := accepts n typed
      rw [createSetSettingPacket_of_setLine junk h typed] at hpacket
      cases hpacket
      have hn := typed.le_byte
      exact .inl ⟨⟨n, typed⟩, (setsLevel_iff hn).mp sets⟩
    · exact .inr ⟨hline, refuses hline⟩
  · rintro (⟨hline, hsetting⟩ | ⟨hline, hnone⟩)
    · refine ⟨fun n typed => ?_, fun hno => absurd hline hno⟩
      have hpacket := createSetSettingPacket_of_setLine junk h typed
      exact ⟨_, hpacket, (setsLevel_iff typed.le_byte).mpr hsetting⟩
    · exact ⟨fun n typed => (hline ⟨n, typed⟩).elim, fun _ => hnone⟩

theorem set_command_example :
    SetCommandWorks Buffer.zero (lineBuffer (ascii "set COMPRESSION_LEVEL=7"))
      (ascii "set COMPRESSION_LEVEL=7") :=
  (set_command_iff Buffer.zero (holdsLine_lineBuffer (by decide) (by decide)) (by decide)).mpr
    (.inl ⟨⟨7, ascii "7", by decide, by decide, List.all_eq_true.mp rfl, by decide, by decide⟩,
      rfl⟩)

/-- Another word sends the level 0: no text counts as that number. -/
theorem not_set_command :
    HoldsLine (lineBuffer (ascii "set help")) (ascii "set help") ∧
      ¬ SetCommandWorks Buffer.zero (lineBuffer (ascii "set help")) (ascii "set help") := by
  refine ⟨holdsLine_lineBuffer (by decide) (by decide), fun works => ?_⟩
  have hline : ¬ ∃ n, SetLine (ascii "set help") n := by
    rintro ⟨n, digits, hline, -⟩
    have hlength := congrArg List.length hline
    simp [ascii] at hlength
  have hpacket := works.refuses hline
  cases hpacket

end ConcurrentTcp
