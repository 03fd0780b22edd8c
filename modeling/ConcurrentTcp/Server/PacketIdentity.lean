import ConcurrentTcp.Server.AdminPrivilege
import ConcurrentTcp.Server.Threads

/-!
What a packet is handled as.

`get_packet_type` and the settings handler read the receive buffer of the
connection instead of the packet. By the time a worker reads it, the server thread
may have shifted it and received into it. `HandledAsItself` is what the handling of
a packet should be; `handled_as_itself_iff` says what must be in the receive buffer
for it.
-/

namespace ConcurrentTcp

open Interaction Transition

/-! ### What a dispatch depends on -/

/-- The handler that reads the receive buffer is about to run. -/
def ReadsReceiveBuffer (packetType : PacketType) (session : Session) : Prop :=
  packetType = .reqSetSetting ∧ session.id ≠ [] ∧ session.isAdmin = true

section Dispatch

variable {users : DatabaseHandler} {fuel : Nat} {packetType : PacketType} {rb own : Buffer}
  {cb : ConnectionBuffer} {s t : HandlerState}

theorem handlers_receiveBuffer (h : packetType ≠ .reqSetSetting) (rb own : Buffer) :
    handlers users fuel rb cb packetType = handlers users fuel own cb packetType := by
  cases packetType with
  | reqSetSetting => exact absurd rfl h
  | _ => rfl

/-- A dispatch depends on the receive buffer through the setting decoded from it. -/
theorem dispatch_receiveBuffer
    (h : ReadsReceiveBuffer packetType s.session →
      SetSettingPacket.decode rb = SetSettingPacket.decode own) :
    dispatch users fuel packetType rb cb s = dispatch users fuel packetType own cb s := by
  unfold dispatch
  split
  · rfl
  rename_i authorized
  by_cases hty : packetType = .reqSetSetting
  swap
  · rw [handlers_receiveBuffer hty rb own]
  subst hty
  show reqSetSetting rb s = reqSetSetting own s
  unfold reqSetSetting
  split
  · rfl
  rename_i hadmin
  have hid : s.session.id ≠ [] := by
    rintro hempty
    exact authorized (by rw [hempty]; rfl)
  rw [h ⟨rfl, hid, by simpa using hadmin⟩]

/-- Response types have no handler and need a login. -/
theorem handlers_of_response (h : PacketType.reqClean.toByte < packetType.toByte)
    (users : DatabaseHandler) (fuel : Nat) (rb : Buffer) (cb : ConnectionBuffer) :
    packetType.needsNoLogin = false ∧ handlers users fuel rb cb packetType = none := by
  revert h
  cases packetType <;> first | exact fun h => absurd h (by decide) | exact fun _ => ⟨rfl, rfl⟩

/-- Nothing but the response buffer of the worker changed. -/
def NothingChanged (before : HandlerState) (events : List ServerEvent) :
    Except Fault HandlerState → Prop
  | .ok after => after.session = before.session ∧ after.g = before.g ∧
      ∀ e ∈ events, ∃ bytes, e.op = .send bytes
  | .error _ => False

/-- A response type changes nothing exactly when the session has no login: with one,
an empty slot is called. -/
theorem response_changes_nothing_iff (h : PacketType.reqClean.toByte < packetType.toByte)
    {events : List ServerEvent} {out : Except Fault HandlerState}
    (run : Exec (dispatch users fuel packetType rb cb s) events out) :
    NothingChanged s events out ↔ s.session.id = [] := by
  obtain ⟨hlogin, hslot⟩ := handlers_of_response h users fuel rb cb
  unfold dispatch at run
  rw [hlogin, hslot] at run
  by_cases hid : s.session.id = []
  · rw [if_pos (by rw [hid]; rfl)] at run
    refine iff_of_true ?_ hid
    obtain ⟨ans, rest, rfl, tail⟩ := Exec.call_iff.mp run
    obtain ⟨rfl, rfl⟩ := Exec.ret_iff.mp tail
    refine ⟨rfl, rfl, fun e he => ?_⟩
    cases List.mem_singleton.mp he
    exact ⟨_, rfl⟩
  · rw [if_neg (by simpa using hid)] at run
    refine iff_of_false ?_ hid
    obtain ⟨rfl, rfl⟩ := Exec.fail_iff.mp run
    exact id

end Dispatch

/-! ### Packet types -/

/-- The byte of the type that is read. -/
theorem getPacketType_toByte (rb : Buffer) :
    (getPacketType rb).toByte =
      if PacketType.respFileList.toByte < rb.command then PacketType.reqSetSetting.toByte
      else rb.command := by
  unfold getPacketType
  split
  · rfl
  · rename_i hle
    have hlt : rb.command.toNat < PacketType.all.length := by
      have hbound : ¬ (43 : UInt8) < rb.command := hle
      have := UInt8.le_iff_toNat_le.mp (UInt8.not_lt.mp hbound)
      have hlen : PacketType.all.length = 45 := rfl
      have hnat : (43 : UInt8).toNat = 43 := rfl
      omega
    have htype : PacketType.ofByte? rb.command = some (PacketType.all[rb.command.toNat]) :=
      List.getElem?_eq_getElem hlt
    rw [htype, Option.getD_some]
    exact PacketType.toByte_of_ofByte? htype

/-- The receive buffer gives the packet's own command. -/
def CommandKept (rb own : Buffer) : Prop :=
  own.command ≤ PacketType.respFileList.toByte ∧
    (rb.command = own.command ∨
      PacketType.respFileList.toByte < rb.command ∧
        own.command = PacketType.reqSetSetting.toByte)

theorem getPacketType_own_iff {rb own : Buffer} :
    (getPacketType rb).toByte = own.command ↔ CommandKept rb own := by
  rw [getPacketType_toByte]
  unfold CommandKept
  split
  · rename_i hlarge
    constructor
    · intro heq
      rw [← heq]
      exact ⟨by decide, .inr ⟨hlarge, rfl⟩⟩
    · rintro ⟨hown, hsame | ⟨-, hset⟩⟩
      · rw [← hsame] at hown
        exact absurd hlarge (UInt8.not_lt.mpr hown)
      · exact hset.symm
  · rename_i hsmall
    constructor
    · intro heq
      exact ⟨heq ▸ UInt8.not_lt.mp hsmall, .inl heq⟩
    · rintro ⟨-, hsame | ⟨hlarge, -⟩⟩
      · exact hsame
      · exact absurd hlarge hsmall

/-- The setting is decoded from nine bytes. -/
theorem decode_setting_iff {rb own : Buffer} :
    SetSettingPacket.decode rb = SetSettingPacket.decode own ↔ rb.read 4 9 = own.read 4 9 := by
  have hsplit : ∀ b : Buffer, b.read 4 9 = b 4 :: b.read 5 8 := fun b => Buffer.read_add b 4 1 8
  rw [hsplit, hsplit, List.cons_eq_cons]
  exact SetSettingPacket.mk.injEq .. ▸ Iff.rfl

/-! ### Handling in a run -/

/-- The type is the packet's own command; the handler runs as it would on the
packet's own bytes; and a packet that is no request changes nothing. -/
def HandledAsItself (users : DatabaseHandler) : ThreadLabel → Prop
  | .start task receiveBuffer =>
      (getPacketType receiveBuffer).toByte = task.packet.buffer.command
  | .finish task packetType receiveBuffer before events out =>
      (ReadsReceiveBuffer packetType before.session →
        SetSettingPacket.decode receiveBuffer = SetSettingPacket.decode task.packet.buffer) ∧
      (∀ fuel, dispatch users fuel packetType receiveBuffer task.packet before =
        dispatch users fuel packetType task.packet.buffer task.packet before) ∧
      (PacketType.reqClean.toByte < task.packet.buffer.command → NothingChanged before events out)
  | _ => True

/-- When the type is read, the receive buffer gives the packet's command; when an
admin's setting is changed, also the bytes of the setting. A packet that is no
request belongs to a session without a login. -/
def BufferKept : ThreadLabel → Prop
  | .start task receiveBuffer => CommandKept receiveBuffer task.packet.buffer
  | .finish task packetType receiveBuffer before _ _ =>
      (ReadsReceiveBuffer packetType before.session →
        receiveBuffer.read 4 9 = task.packet.buffer.read 4 9) ∧
      (PacketType.reqClean.toByte < task.packet.buffer.command → before.session.id = [])
  | _ => True

/-- Every handler in progress was called for its packet's own command. -/
def TypedAsOwn (s : ServerState) : Prop :=
  ∀ task packetType, Worker.inProgress task packetType ∈ s.workers →
    packetType.toByte = task.packet.buffer.command

section Steps

variable {users : DatabaseHandler} {s t : ServerState} {l : ThreadLabel}

/-- A handler in progress was so before, or was just called. -/
theorem ThreadStep.inProgress (step : ThreadStep users s l t) {task : Task}
    {packetType : PacketType} (h : Worker.inProgress task packetType ∈ t.workers) :
    Worker.inProgress task packetType ∈ s.workers ∨
      ∃ receiveBuffer, l = .start task receiveBuffer ∧
        packetType = getPacketType receiveBuffer := by
  cases step with
  | take htasks hworkers =>
      left
      rw [hworkers]
      rcases List.mem_append.mp h with hfront | hrest
      · exact List.mem_append_left _ hfront
      · rcases List.mem_cons.mp hrest with heq | hback
        · cases heq
        · exact List.mem_append_right _ (List.mem_cons_of_mem _ hback)
  | start hworkers hbuffer =>
      rw [hworkers]
      rcases List.mem_append.mp h with hfront | hrest
      · exact .inl (List.mem_append_left _ hfront)
      · rcases List.mem_cons.mp hrest with heq | hback
        · cases heq
          exact .inr ⟨_, rfl, rfl⟩
        · exact .inl (List.mem_append_right _ (List.mem_cons_of_mem _ hback))
  | finish fuel tls events out hworkers hlive run hfuel =>
      left
      rename_i served servedType connection front back
      have hmem : Worker.inProgress task packetType ∈ front ++ .idle :: back := by
        cases out with
        | ok u => exact h
        | error e => exact h
      rw [hworkers]
      rcases List.mem_append.mp hmem with hfront | hrest
      · exact List.mem_append_left _ hfront
      · rcases List.mem_cons.mp hrest with heq | hback
        · cases heq
        · exact List.mem_append_right _ (List.mem_cons_of_mem _ hback)
  | _ => exact .inl h

theorem TypedAsOwn.step (typed : TypedAsOwn s) (step : ThreadStep users s l t)
    (handled : HandledAsItself users l) : TypedAsOwn t := by
  intro task packetType hmem
  rcases step.inProgress hmem with hold | ⟨receiveBuffer, rfl, rfl⟩
  · exact typed task packetType hold
  · exact handled

/-- A packet is handled as itself exactly when the receive buffer was kept. -/
theorem ThreadStep.handledAsItself_iff (step : ThreadStep users s l t) (typed : TypedAsOwn s) :
    HandledAsItself users l ↔ BufferKept l := by
  cases step with
  | start hworkers hbuffer => exact getPacketType_own_iff
  | finish fuel tls events out hworkers hlive run hfuel =>
      rename_i task packetType connection front back
      have hown := typed task packetType
        (hworkers ▸ List.mem_append_right _ List.mem_cons_self)
      show (_ ∧ _ ∧ _) ↔ (_ ∧ _)
      rw [← decode_setting_iff]
      constructor
      · rintro ⟨hsetting, -, hresponse⟩
        refine ⟨hsetting, fun hlarge => ?_⟩
        have hlarge' : PacketType.reqClean.toByte < packetType.toByte := hown.symm ▸ hlarge
        exact (response_changes_nothing_iff hlarge' run).mp (hresponse hlarge)
      · rintro ⟨hsetting, hresponse⟩
        refine ⟨hsetting, fun fuel => dispatch_receiveBuffer hsetting, fun hlarge => ?_⟩
        have hlarge' : PacketType.reqClean.toByte < packetType.toByte := hown.symm ▸ hlarge
        exact (response_changes_nothing_iff hlarge' run).mpr (hresponse hlarge)
  | _ => exact Iff.rfl

end Steps

/-- In a run of the threads, every packet is handled as itself exactly when the receive buffer is
kept in every step: a worker reads the type there, and an admin's handler the setting, when the
packet may no longer be at its front. -/
theorem handled_as_itself_iff {users : DatabaseHandler} {s : ServerState}
    {moves : List (Move ServerState ThreadLabel)}
    (run : Run (threadSystem users) .initial moves s) :
    (∀ m ∈ moves, HandledAsItself users m.label) ↔ ∀ m ∈ moves, BufferKept m.label := by
  have exact_step : ∀ m : Move ServerState ThreadLabel, TypedAsOwn m.pre →
      (threadSystem users).step m.pre m.label m.post →
      (HandledAsItself users m.label ↔ BufferKept m.label) := by
    rintro ⟨s, l, t⟩ typed ⟨-, step⟩
    exact step.handledAsItself_iff typed
  have keeps : ∀ m : Move ServerState ThreadLabel, TypedAsOwn m.pre →
      (threadSystem users).step m.pre m.label m.post →
      HandledAsItself users m.label → TypedAsOwn m.post := by
    rintro ⟨s, l, t⟩ typed ⟨-, step⟩ handled
    exact typed.step step handled
  have initial : TypedAsOwn .initial := by
    intro task packetType hmem
    cases List.eq_of_mem_replicate hmem
  exact run.moves_iff exact_step keeps initial

/-- A logout and a ping in one `recv`: the logout is handled as a ping. -/
theorem logout_handled_as_ping :
    ∃ s t receiveBuffer, Reachable (threadSystem exampleUsers) s ∧ s.received 0 = logoutPing ∧
      (threadSystem exampleUsers).step s (.start logoutTask receiveBuffer) t ∧
      getPacketType receiveBuffer = .reqPing ∧
      ¬ HandledAsItself exampleUsers (.start logoutTask receiveBuffer) := by
  obtain ⟨s, reach, running, hreceived, htasks, hworkers, -, connection, hlive, hcommand⟩ :=
    exists_two_frames exampleUsers
  have ping := reach.step ⟨running, @ThreadStep.take _ _ _ _ [] _ htasks hworkers⟩
  have logout := ping.step
    ⟨running, @ThreadStep.take _ _ logoutTask [] [.taken secondPingTask] _ rfl rfl⟩
  have htype : getPacketType connection.buffer = .reqPing := by
    unfold getPacketType
    rw [hcommand]
    rfl
  refine ⟨_, _, connection.buffer, logout, hreceived, ⟨running, @ThreadStep.start _ _ logoutTask _
    [.taken secondPingTask] _ rfl fun c hc => ?_⟩, htype, ?_⟩
  · have heq : some connection = some c := hlive.symm.trans hc
    cases heq
    rfl
  · intro handled
    have hown : (getPacketType connection.buffer).toByte = 14 := handled
    rw [htype] at hown
    exact absurd hown (by decide)

/-- A single ping is handled as itself. -/
theorem ping_handled_as_itself :
    ∃ s moves, Run (threadSystem exampleUsers) .initial moves s ∧ s.started = [pingTask] ∧
      ∀ m ∈ moves, HandledAsItself exampleUsers m.label := by
  obtain ⟨s, ⟨start, moves, rfl, run, ok⟩, hstarted, -⟩ := exists_ping_run exampleUsers
    (fun _ l => BufferKept l) (fun _ _ _ => trivial) (fun _ => trivial) (fun _ _ _ => trivial)
    (fun _ _ => trivial) (fun _ _ => trivial)
    (fun _ receiveBuffer hcommand => ⟨by decide, .inl hcommand⟩)
    (fun _ _ _ _ _ => ⟨by rintro ⟨⟨⟩, -⟩, fun hlarge => absurd hlarge (by decide)⟩)
  exact ⟨s, moves, run, hstarted, (handled_as_itself_iff run).mpr ok⟩

end ConcurrentTcp
