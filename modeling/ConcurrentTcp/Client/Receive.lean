import ConcurrentTcp.Base.Interaction
import ConcurrentTcp.Client.Utils

/-!
How a response arrives (`recv_from_server` in `common/utils.hpp`).

`recvFromServerProg` makes the calls of the function, and `deliver` answers them with what
has arrived of a stream. `deliver_recvFromServer` is the reading of a response as one step,
`recvFromServer`, for streams whose first four bytes arrive together; by
`reads_response_iff` these are the streams that are read correctly.
-/

namespace ConcurrentTcp

open Interaction

/-! ### The calls -/

/-- `recv`, asked for at most `length` bytes. -/
structure RecvOp where
  length : Nat

/-- What was stored, or `none` for `-1`. -/
abbrev RecvAns (_ : RecvOp) : Type := Option (List UInt8)

inductive RecvFault where
  | outOfFuel
deriving DecidableEq, Repr

abbrev RecvProg (α : Type) : Type := Prog RecvOp RecvAns RecvFault α

/-- The loop for the rest of the packet. -/
def recvLoop : Nat → Buffer → Nat → Nat → RecvProg (Bool × Buffer)
  | 0, _, _, _ => .fail .outOfFuel
  | fuel + 1, buffer, recvCount, packetSize =>
      if recvCount < packetSize then
        .call ⟨packetSize - recvCount⟩ fun
          | none => .ret (false, buffer)
          | some bytes =>
              recvLoop fuel (buffer.write recvCount bytes) (recvCount + bytes.length) packetSize
      else .ret (true, buffer)

/-- `recv_from_server`: `recv_count` is 4 whatever the first `recv` returned. -/
def recvFromServerProg (fuel : Nat) (buffer : Buffer) : RecvProg (Bool × Buffer) :=
  .call ⟨4⟩ fun
    | none => .ret (false, buffer)
    | some bytes =>
        let buffer := buffer.write 0 bytes
        let packetSize := buffer.totalSize
        if packetSize = 4 then .ret (true, buffer) else recvLoop fuel buffer 4 packetSize

/-! ### Delivery -/

/-- The run of a program on a stream, of which `more i + 1` bytes have arrived at the `i`-th
`recv` unless less is left. The result is `none` where `recv` waits for bytes that never
come. -/
def deliver {α : Type} : (Nat → Nat) → RecvProg α → List UInt8 →
    Option (Except RecvFault α × List UInt8)
  | _, .ret a, stream => some (.ok a, stream)
  | _, .fail e, stream => some (.error e, stream)
  | _, .call _ _, [] => none
  | more, .call op next, byte :: stream =>
      let count := min op.length (more 0 + 1)
      deliver (fun i => more (i + 1)) (next (some ((byte :: stream).take count)))
        ((byte :: stream).drop count)

section Deliver

variable {more : Nat → Nat} {fuel : Nat} {buffer b : Buffer} {recvCount packetSize : Nat}
  {left : List UInt8}

/-- The loop ends. -/
theorem deliver_recvLoop_end (more : Nat → Nat) (buffer : Buffer) (stream : List UInt8)
    (hfuel : 0 < fuel) (h : packetSize ≤ recvCount) :
    deliver more (recvLoop fuel buffer recvCount packetSize) stream =
      some (.ok (true, buffer), stream) := by
  obtain ⟨fuel, rfl⟩ := Nat.exists_eq_add_one_of_ne_zero (Nat.ne_of_gt hfuel)
  rw [recvLoop, if_neg (Nat.not_lt.mpr h)]
  simp [deliver]

/-- The loop reads what is missing of the packet, in any pieces. -/
theorem deliver_recvLoop (more : Nat → Nat) (buffer : Buffer) (bytes rest : List UInt8)
    (hfuel : bytes.length < fuel) (hlen : recvCount + bytes.length = packetSize) :
    deliver more (recvLoop fuel buffer recvCount packetSize) (bytes ++ rest) =
      some (.ok (true, buffer.write recvCount bytes), rest) := by
  induction fuel generalizing more buffer recvCount bytes with
  | zero => cases hfuel
  | succ fuel ih =>
      cases bytes with
      | nil =>
          rw [List.nil_append, Buffer.write_nil]
          exact deliver_recvLoop_end more buffer rest (Nat.succ_pos fuel) (Nat.le_of_eq hlen.symm)
      | cons byte bytes =>
          have hmissing : packetSize - recvCount = bytes.length + 1 := by
            rw [List.length_cons] at hlen
            omega
          rw [recvLoop, if_pos (by omega), hmissing, List.cons_append, deliver]
          dsimp only
          generalize hcount : min (bytes.length + 1) (more 0 + 1) = count
          have hfits : count ≤ (byte :: bytes).length := by
            rw [List.length_cons]
            omega
          rw [← List.cons_append, List.take_append_of_le_length hfits,
            List.drop_append_of_le_length hfits]
          have hrest : recvCount + count + ((byte :: bytes).drop count).length = packetSize := by
            rw [List.length_drop]
            omega
          have hless : ((byte :: bytes).drop count).length < fuel := by
            rw [List.length_drop]
            omega
          have hsome := ih (fun i => more (i + 1))
            (buffer.write recvCount ((byte :: bytes).take count)) _ hless hrest
          have hcut : ((byte :: bytes).take count).length = count := List.length_take_of_le hfits
          have hwrite := buffer.write_append recvCount ((byte :: bytes).take count)
            ((byte :: bytes).drop count)
          rw [hcut, List.take_append_drop] at hwrite
          rw [hcut, hsome, hwrite]

/-- What the loop leaves alone, and how much it reads. -/
theorem recvLoop_returned {stream : List UInt8}
    (h : deliver more (recvLoop fuel buffer recvCount packetSize) stream =
      some (.ok (true, b), left)) :
    (∀ i < recvCount, b i = buffer i) ∧
      stream.length = (packetSize - recvCount) + left.length := by
  induction fuel generalizing more buffer recvCount stream with
  | zero => cases h
  | succ fuel ih =>
      rw [recvLoop] at h
      split at h
      · cases stream with
        | nil => cases h
        | cons byte stream =>
            rw [deliver] at h
            dsimp only at h
            generalize hcount : min (packetSize - recvCount) (more 0 + 1) = count at h
            obtain ⟨same, hlen⟩ := ih h
            constructor
            · intro i hi
              rw [same i (by omega), Buffer.write_of_lt _ _ _ hi]
            · rw [List.length_drop, List.length_take] at hlen
              omega
      · cases h
        exact ⟨fun _ _ => rfl, by omega⟩

/-- The header that was stored. -/
theorem totalSize_write_header (buffer : Buffer) {bytes : List UInt8} (h : 4 ≤ bytes.length) :
    (buffer.write 0 bytes).totalSize = declaredSize bytes := by
  have hbyte : ∀ i < 4, (buffer.write 0 bytes) i = bytes.getD i 0 := by
    intro i hi
    simp only [Buffer.write]
    rw [if_pos ⟨Nat.zero_le _, by omega⟩, Nat.sub_zero]
  simp only [Buffer.totalSize, Buffer.u16, declaredSize]
  rw [hbyte 2 (by omega), hbyte (2 + 1) (by omega)]

/-- The first `recv`, when the header arrives in one piece. -/
theorem deliver_header {header : List UInt8} (buffer : Buffer) (rest : List UInt8)
    (hheader : 3 ≤ more 0) (hlen : header.length = 4) :
    deliver more (recvFromServerProg fuel buffer) (header ++ rest) =
      deliver (fun i => more (i + 1)) (if declaredSize header = 4 then
        .ret (true, buffer.write 0 header)
        else recvLoop fuel (buffer.write 0 header) 4 (declaredSize header)) rest := by
  have hsize := totalSize_write_header buffer hlen.ge
  have hcount : min 4 (more 0 + 1) = 4 := by omega
  cases header with
  | nil => cases hlen
  | cons byte header =>
      rw [List.cons_append, recvFromServerProg, deliver]
      dsimp only
      rw [hcount, ← List.cons_append, List.take_left' hlen, List.drop_left' hlen, hsize]

/-- A response whose header arrives in one piece is read as `recvFromServer` reads it. -/
theorem deliver_recvFromServer {stream : List UInt8} (buffer : Buffer) (hheader : 3 ≤ more 0)
    (hlen : max sizeofPacketHeader (declaredSize stream) ≤ stream.length)
    (hfuel : uint16Max < fuel) :
    ∃ b, deliver more (recvFromServerProg fuel buffer) stream =
        some (.ok (true, b), (recvFromServer stream).2) ∧
      b.read 0 (recvFromServer stream).1.length = (recvFromServer stream).1 := by
  have hfour : sizeofPacketHeader = 4 := rfl
  rw [hfour] at hlen
  obtain ⟨header, rest, rfl, hheaderLen⟩ : ∃ header rest, stream = header ++ rest ∧
      header.length = 4 :=
    ⟨stream.take 4, stream.drop 4, (List.take_append_drop ..).symm,
      List.length_take_of_le (by omega)⟩
  have hsize : declaredSize (header ++ rest) = declaredSize header :=
    declaredSize_append hheaderLen.ge rest
  rw [deliver_header buffer rest hheader hheaderLen]
  unfold recvFromServer
  rw [hfour, hsize, List.splitAt_eq]
  rw [hsize, List.length_append, hheaderLen] at hlen
  by_cases hlong : 4 < declaredSize header
  · have hmax : max 4 (declaredSize header) = header.length + (declaredSize header - 4) := by omega
    have hbound : declaredSize header ≤ uint16Max := by
      have := (buffer.write 0 header).totalSize_lt
      rw [totalSize_write_header buffer hheaderLen.ge] at this
      unfold uint16Max
      omega
    have hbytes : (rest.take (declaredSize header - 4)).length = declaredSize header - 4 :=
      List.length_take_of_le (by omega)
    have hwhole : 4 + (rest.take (declaredSize header - 4)).length = declaredSize header := by
      omega
    have hfits : (rest.take (declaredSize header - 4)).length < fuel := by omega
    have hloop := deliver_recvLoop (fun i => more (i + 1)) (buffer.write 0 header) _
      (rest.drop (declaredSize header - 4)) hfits hwhole
    rw [List.take_append_drop] at hloop
    rw [if_neg (Nat.ne_of_gt hlong), hloop, hmax, List.take_length_add_append,
      List.drop_length_add_append]
    refine ⟨_, rfl, ?_⟩
    have hwrite := buffer.write_append 0 header (rest.take (declaredSize header - 4))
    rw [Nat.zero_add, hheaderLen] at hwrite
    rw [hwrite]
    exact Buffer.read_write ..
  · have hmax : max 4 (declaredSize header) = 4 := by omega
    rw [hmax, List.take_left' hheaderLen, List.drop_left' hheaderLen]
    refine ⟨buffer.write 0 header, ?_, Buffer.read_write ..⟩
    split
    · simp [deliver]
    · exact deliver_recvLoop_end _ _ rest (Nat.zero_lt_of_lt hfuel) (Nat.le_of_not_lt hlong)

/-- When the first `recv` returns less, the bytes that are missing from the header are
missing at the end: the size that counts is what the buffer has after it. -/
theorem deliver_short {stream : List UInt8} (hheader : more 0 + 1 < 4)
    (hlen : more 0 + 1 ≤ stream.length)
    (h : deliver more (recvFromServerProg fuel buffer) stream = some (.ok (true, b), left)) :
    stream.length = (more 0 + 1) + (b.totalSize - 4) + left.length := by
  cases stream with
  | nil => cases h
  | cons byte stream =>
      rw [recvFromServerProg, deliver] at h
      dsimp only at h
      have hcount : min 4 (more 0 + 1) = more 0 + 1 := by omega
      have hdrop : ((byte :: stream).drop (more 0 + 1)).length =
          (byte :: stream).length - (more 0 + 1) := List.length_drop ..
      rw [hcount] at h
      split at h
      · rename_i hsize
        rw [deliver] at h
        cases h
        omega
      · obtain ⟨same, hread⟩ := recvLoop_returned h
        have hsize : b.totalSize =
            (buffer.write 0 ((byte :: stream).take (more 0 + 1))).totalSize :=
          Buffer.u16_congr fun i _ hi => same i hi
        omega

end Deliver

/-! ### Responses -/

/-- The response is read: the buffer has the frame, and what follows it stays unread. -/
def ReadsResponse (more : Nat → Nat) (fuel : Nat) (buffer : Buffer) (frame rest : List UInt8) :
    Prop :=
  ∃ b, deliver more (recvFromServerProg fuel buffer) (frame ++ rest) =
      some (.ok (true, b), rest) ∧ b.read 0 frame.length = frame

/-- Whatever is in the buffer and follows the response, and however the later calls cut it: a
well-formed response is read exactly when the first `recv` returns a whole header. The fuel
suffices for every frame. -/
theorem reads_response_iff {frame rest : List UInt8} {more : Nat → Nat} {fuel : Nat}
    (buffer : Buffer) (hframe : WellFormedPacket frame) (hfuel : uint16Max < fuel) :
    ReadsResponse more fuel buffer frame rest ↔ 4 ≤ more 0 + 1 := by
  obtain ⟨hheader, hbound, hsize⟩ := hframe
  have hdeclared : declaredSize (frame ++ rest) = frame.length := by
    rw [declaredSize_append hheader, hsize]
  constructor
  · rintro ⟨b, hrun, hframe⟩
    by_contra hshort
    have hlen : (frame ++ rest).length = frame.length + rest.length := List.length_append
    have hconsumed := deliver_short (by omega) (by omega) hrun
    have hread := declaredSize_read b hheader
    rw [hframe, hsize] at hread
    omega
  · intro hfirst
    have hmax : max sizeofPacketHeader (declaredSize (frame ++ rest)) = frame.length := by
      rw [hdeclared]
      exact Nat.max_eq_right hheader
    have hlen : max sizeofPacketHeader (declaredSize (frame ++ rest)) ≤ (frame ++ rest).length := by
      rw [hmax, List.length_append]
      omega
    have hrecv : recvFromServer (frame ++ rest) = (frame, rest) := by
      rw [recvFromServer, hmax, List.splitAt_eq, List.take_left' rfl, List.drop_left' rfl]
    have hmore : 3 ≤ more 0 := by omega
    obtain ⟨b, hrun, hread⟩ := deliver_recvFromServer buffer hmore hlen hfuel
    rw [hrecv] at hrun hread
    exact ⟨b, hrun, hread⟩

/-- The first byte of a pong arrives alone: the size is taken from what the buffer has. -/
theorem not_reads_split_header :
    ¬ ReadsResponse (fun _ => 0) 65536 Buffer.zero [1, PacketType.respPong.toByte, 4, 0] [] := by
  rintro ⟨b, hrun, -⟩
  cases hrun

/-- The pong arrives in one piece, with the first byte of what follows. -/
theorem reads_response_whole :
    ReadsResponse (fun _ => 4) 65536 Buffer.zero [1, PacketType.respPong.toByte, 4, 0] [1] :=
  (reads_response_iff _ (by decide) (by decide)).mpr (by decide)

end ConcurrentTcp
