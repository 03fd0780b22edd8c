import ConcurrentTcp.Server.Receive
import ConcurrentTcp.Server.AdminPrivilege

/-!
Upload chunks and their payload length.

The upload handlers write `total_size - sizeof(PacketHeader)` bytes. Extraction
admits packets of one to three bytes, whose header is cut short and reads as a
total size below four. `carriesPayload_iff` shows that these are the only packets
whose payload length is wrong.
-/

namespace ConcurrentTcp

open Interaction Transition

/-! ### The header of an extracted packet -/

/-- The header is read from the zero-filled packet buffer. -/
theorem ConnectionBuffer.totalSize_buffer (cb : ConnectionBuffer) :
    cb.buffer.totalSize = declaredSize cb.frame := rfl

/-- Cutting bytes off, which then read as zero, does not enlarge the size. -/
theorem declaredSize_take_le (xs : List UInt8) (n : Nat) :
    declaredSize (xs.take n) ≤ declaredSize xs := by
  have hbyte : ∀ i, ((xs.take n).getD i 0).toNat ≤ (xs.getD i 0).toNat := by
    intro i
    rw [List.getD_eq_getElem?_getD, List.getD_eq_getElem?_getD, List.getElem?_take]
    split
    · exact Nat.le_refl _
    · simp
  have h2 := hbyte 2
  have h3 := hbyte 3
  unfold declaredSize
  omega

/-- Of the extracted packets, those with a whole header declare their length,
and shorter ones declare less than a header. -/
theorem declaredSize_of_mem_parse {stream frame : List UInt8}
    (h : frame ∈ (packetFraming.parse stream).1) :
    (4 ≤ frame.length → declaredSize frame = frame.length) ∧
      (frame.length < 4 → declaredSize frame < 4) := by
  obtain ⟨ys, hsize, hframe⟩ := packetFraming.exists_size_of_mem_parse h
  obtain ⟨-, -, hle, hdeclared⟩ := packetSize?_eq_some.mp hsize
  constructor
  · intro hlong
    have hsplit : frame ++ ys.drop frame.length = ys := by
      conv => lhs; arg 1; rw [hframe]
      exact List.take_append_drop ..
    rw [← declaredSize_append hlong (ys.drop frame.length), hsplit, hdeclared]
  · intro hshort
    have hcut := declaredSize_take_le ys frame.length
    rw [← hframe] at hcut
    omega

/-! ### Payload length -/

/-- The packet's total size covers its header, and what the handlers compute is
the number of its payload bytes. -/
def CarriesPayload (cb : ConnectionBuffer) : Prop :=
  sizeofPacketHeader ≤ cb.buffer.totalSize ∧
    payloadLength cb + sizeofPacketHeader = cb.frame.length

/-- The calls of the upload handlers on this packet write its payload bytes. -/
def WritesPayload (users : DatabaseHandler) (cb : ConnectionBuffer) : Prop :=
  ∀ ty, ty = PacketType.reqFileTransferChunk ∨ ty = PacketType.reqFileTransferEnd →
    ∀ fuel receiveBuffer s events out,
      Exec (dispatch users fuel ty receiveBuffer cb s) events out →
      ∀ e ∈ events, ∀ fd data count, e.op = .write fd data count →
        data = fileData cb ∧ count + sizeofPacketHeader = cb.frame.length

theorem carriesPayload_iff {stream : List UInt8} {cb : ConnectionBuffer}
    (h : cb.frame ∈ (packetFraming.parse stream).1) :
    CarriesPayload cb ↔ 4 ≤ cb.frame.length := by
  obtain ⟨hlong, hshort⟩ := declaredSize_of_mem_parse h
  unfold CarriesPayload payloadLength
  rw [cb.totalSize_buffer]
  unfold sizeofPacketHeader
  constructor
  · rintro ⟨hheader, -⟩
    by_contra hlen
    have := hshort (by omega)
    omega
  · intro hlen
    have hsize := hlong hlen
    have hbound : declaredSize cb.frame < 2 ^ 16 := cb.buffer.totalSize_lt
    omega

/-- The write of an upload handler, in whatever session it runs. -/
theorem writeFileData_writes (answer : PacketType) (cb : ConnectionBuffer) (s : HandlerState) :
    Contract (fun _ => True)
      (fun e => ∀ fd data count, e.op = .write fd data count →
        data = fileData cb ∧ count = payloadLength cb)
      (fun _ => True) (writeFileData answer cb s) := by
  intro written _
  refine ⟨?_, fun sent _ => ⟨?_, trivial⟩⟩
  · rintro fd data count ⟨⟩
    exact ⟨rfl, rfl⟩
  · rintro fd data count ⟨⟩

theorem CarriesPayload.writesPayload {users : DatabaseHandler} {cb : ConnectionBuffer}
    (h : CarriesPayload cb) : WritesPayload users cb := by
  intro ty hty fuel receiveBuffer s events out run e he fd data count hop
  have contract : Contract (fun _ => True)
      (fun e => ∀ fd data count, e.op = SysCall.write fd data count →
        data = fileData cb ∧ count = payloadLength cb)
      (fun _ => True) (dispatch users fuel ty receiveBuffer cb s) := by
    unfold dispatch
    split
    · intro sent _
      refine ⟨?_, trivial⟩
      rintro fd data count ⟨⟩
    · rcases hty with rfl | rfl
      · exact writeFileData_writes .respContinue cb s
      · exact writeFileData_writes .respFileTransferOk cb s
  obtain ⟨hdata, hcount⟩ := (contract.sound run fun _ _ => trivial).1 e he fd data count hop
  exact ⟨hdata, hcount ▸ h.2⟩

/-! ### Streams -/

/-- For every stream and every cut of it, an upload handler on an extracted
packet computes and writes its payload length exactly when the packet has a whole
header; so it does on all packets exactly when none is shorter. -/
theorem upload_payload_iff {users : DatabaseHandler} {socketFd : Int}
    {chunks : List (List UInt8)} (h : Admissible (.accepted socketFd) chunks) :
    (∀ frame ∈ (feed (.accepted socketFd) chunks).1, ∀ c,
        (CarriesPayload ⟨c, frame⟩ ∧ WritesPayload users ⟨c, frame⟩) ↔ 4 ≤ frame.length) ∧
      ((∀ frame ∈ (feed (.accepted socketFd) chunks).1, ∀ c,
          CarriesPayload ⟨c, frame⟩ ∧ WritesPayload users ⟨c, frame⟩) ↔
        ∀ frame ∈ (packetFraming.parse chunks.flatten).1, 4 ≤ frame.length) := by
  have hpushed : (feed (.accepted socketFd) chunks).1 = (packetFraming.parse chunks.flatten).1 :=
    congrArg Prod.fst (feed_accepted h)
  rw [hpushed]
  have each : ∀ frame ∈ (packetFraming.parse chunks.flatten).1, ∀ c : ConnId,
      (CarriesPayload ⟨c, frame⟩ ∧ WritesPayload users ⟨c, frame⟩) ↔ 4 ≤ frame.length := by
    intro frame hframe c
    have hcarries : CarriesPayload ⟨c, frame⟩ ↔ 4 ≤ frame.length := carriesPayload_iff hframe
    rw [← hcarries]
    exact ⟨fun both => both.1, fun carries => ⟨carries, carries.writesPayload⟩⟩
  refine ⟨each, ?_⟩
  constructor
  · intro all frame hframe
    exact (each frame hframe 0).mp (all frame hframe 0)
  · intro all frame hframe c
    exact (each frame hframe c).mpr (all frame hframe)

/-- A chunk packet of declared size three. -/
theorem short_upload_wraps :
    Admissible (.accepted 5) [[0, 1, 3, 0]] ∧
      [0, 1, 3] ∈ (feed (.accepted 5) [[0, 1, 3, 0]]).1 ∧
      payloadLength ⟨0, [0, 1, 3]⟩ = 2 ^ 64 - 1 ∧ ¬ CarriesPayload ⟨0, [0, 1, 3]⟩ := by
  have admissible : Admissible (.accepted 5) [[0, 1, 3, 0]] :=
    ⟨⟨by decide, by decide⟩, trivial⟩
  refine ⟨admissible, ?_, by decide, fun carries => absurd carries.1 (by decide)⟩
  have hcut : packetFraming.size [0, 1, 3, 0] = some 3 := by decide
  rw [congrArg Prod.fst (feed_accepted admissible)]
  exact packetFraming.parse_of_some hcut ▸ List.mem_cons_self

/-- A chunk packet with one byte of payload. -/
theorem upload_of_one_byte :
    CarriesPayload ⟨0, [0, 1, 5, 0, 7]⟩ ∧ WritesPayload exampleUsers ⟨0, [0, 1, 5, 0, 7]⟩ := by
  have admissible : Admissible (.accepted 5) [[0, 1, 5, 0, 7]] :=
    ⟨⟨by decide, by decide⟩, trivial⟩
  have hcut : packetFraming.size [0, 1, 5, 0, 7] = some 5 := by decide
  have hpushed : [0, 1, 5, 0, 7] ∈ (feed (.accepted 5) [[0, 1, 5, 0, 7]]).1 := by
    rw [congrArg Prod.fst (feed_accepted admissible)]
    exact packetFraming.parse_of_some hcut ▸ List.mem_cons_self
  exact ((upload_payload_iff admissible).1 _ hpushed 0).mpr (by decide)

end ConcurrentTcp
