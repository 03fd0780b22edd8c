import ConcurrentTcp.Server.Receive

/-!
The arithmetic of the receive buffer (`receive_all_connections` in `server/main.cpp`).

`receiveChecked` is `receiveConnection` with the integers of the program: it faults where a
copy leaves its array or a position does not fit. `receiveChecked_eq` shows that it never
does, and `receive_bounds` that the buffer is never full unless the peer declares a packet
of size 0.
-/

namespace ConcurrentTcp

/-! ### The program's integers -/

/-- What would be undefined or wrap around; and the loop that does not end. -/
inductive ReceiveFault where
  | recv
  | memcpy
  | memmove
  | outOfFuel
deriving DecidableEq, Repr

/-- The extraction loop. `delta` is an `int`, and stored to `buffer_pos` as `uint16_t`. -/
def extractChecked : Nat → ConnectionWrapper → Nat →
    Except ReceiveFault (List (List UInt8) × ConnectionWrapper)
  | 0, _, _ => .error .outOfFuel
  | fuel + 1, connection, packetSize =>
      if packetSize ≤ connection.bufferPos then
        if packetSize = 0 then .ok ([], connection)
        else if uint16Max < packetSize then .error .memcpy
        else
          let packet := connection.buffer.read 0 packetSize
          let delta : Int := connection.bufferPos - packetSize
          if delta = 0 then .ok ([packet], { connection with bufferPos := 0 })
          else if delta < 0 ∨ uint16Max < packetSize + delta then .error .memmove
          else
            let connection := { connection with
              buffer := connection.buffer.moveDown packetSize delta.toNat
              bufferPos := (delta % 2 ^ 16).toNat }
            if connection.bufferPos < 4 then .ok ([packet], connection)
            else
              match extractChecked fuel connection connection.buffer.totalSize with
              | .ok rest => .ok (packet :: rest.1, rest.2)
              | .error e => .error e
      else .ok ([], connection)

/-- `recv` has stored `bytes` from `buffer + buffer_pos` on. -/
def receiveChecked (fuel : Nat) (connection : ConnectionWrapper) (bytes : List UInt8) :
    Except ReceiveFault (List (List UInt8) × ConnectionWrapper) :=
  if uint16Max < connection.bufferPos + bytes.length then .error .recv
  else
    let connection := connection.recv bytes
    if connection.bufferPos < 4 then .ok ([], connection)
    else extractChecked fuel connection connection.buffer.totalSize

section Bounds

variable {connection : ConnectionWrapper}

theorem ConnectionWrapper.recv_bufferPos {bytes : List UInt8}
    (h : connection.bufferPos + bytes.length ≤ uint16Max) :
    (connection.recv bytes).bufferPos = connection.bufferPos + bytes.length := by
  unfold uint16Max at h
  exact Nat.mod_eq_of_lt (by omega)

/-- An iteration that copies a packet does not fault. -/
theorem extractChecked_succ {packetSize : Nat} (fuel : Nat)
    (h : packetSize ≤ connection.bufferPos ∧ packetSize ≠ 0)
    (hpos : connection.bufferPos ≤ uint16Max) :
    extractChecked (fuel + 1) connection packetSize =
      match (connection.shift packetSize).2 with
      | none => .ok ([connection.buffer.read 0 packetSize], (connection.shift packetSize).1)
      | some packetSize' =>
          match extractChecked fuel (connection.shift packetSize).1 packetSize' with
          | .ok rest => .ok (connection.buffer.read 0 packetSize :: rest.1, rest.2)
          | .error e => .error e := by
  have hdelta : (connection.bufferPos : Int) - packetSize =
      ((connection.bufferPos - packetSize : Nat) : Int) := by
    omega
  have hfits : ¬ uint16Max < packetSize := by omega
  have hstore : ((connection.bufferPos - packetSize : Nat) : Int) % 2 ^ 16 =
      ((connection.bufferPos - packetSize : Nat) : Int) := by
    unfold uint16Max at hpos
    omega
  rw [extractChecked, if_pos h.1, if_neg h.2, if_neg hfits]
  unfold ConnectionWrapper.shift
  dsimp only
  rw [hdelta]
  by_cases hzero : connection.bufferPos - packetSize = 0
  · rw [if_pos hzero, if_pos (by omega)]
  · rw [if_neg hzero, if_neg (by omega), if_neg (by omega), hstore, Int.toNat_natCast]
    split <;> rfl

/-- The loop ends without a fault. -/
theorem extractChecked_eq {packetSize : Nat} (fuel : Nat) (hfuel : connection.bufferPos < fuel)
    (hpos : connection.bufferPos ≤ uint16Max) :
    extractChecked fuel connection packetSize = .ok (extractPackets connection packetSize) := by
  obtain ⟨fuel, rfl⟩ := Nat.exists_eq_add_one_of_ne_zero (Nat.ne_zero_of_lt hfuel)
  induction connection, packetSize using extract_induction generalizing fuel with
  | stop connection packetSize h =>
      rw [extractPackets_stop h, extractChecked]
      by_cases hfits : packetSize ≤ connection.bufferPos
      · have hzero : packetSize = 0 := by
          by_contra hne
          exact h ⟨hfits, hne⟩
        rw [if_pos hfits, if_pos hzero]
      · rw [if_neg hfits]
  | last connection packetSize h hnext =>
      rw [extractPackets_last h hnext, extractChecked_succ fuel h hpos, hnext]
  | more connection packetSize packetSize' h hnext ih =>
      have hshift := connection.shift_bufferPos packetSize
      obtain ⟨fuel, rfl⟩ : ∃ n, fuel = n + 1 := ⟨fuel - 1, by omega⟩
      have hrest := ih (by omega) fuel (by omega)
      rw [extractPackets_more h hnext, extractChecked_succ _ h hpos, hnext]
      dsimp only
      rw [hrest]

/-- What fits is received without a fault. -/
theorem receiveChecked_eq {bytes : List UInt8} {fuel : Nat}
    (hfits : connection.bufferPos + bytes.length ≤ uint16Max) (hfuel : uint16Max < fuel) :
    receiveChecked fuel connection bytes = .ok (receiveConnection connection bytes) := by
  have hpos := connection.recv_bufferPos hfits
  rw [receiveChecked, if_neg (by omega), receiveConnection]
  dsimp only
  split
  · rfl
  · exact extractChecked_eq fuel (by omega) (by omega)

end Bounds

/-! ### Room in the buffer -/

/-- The stream has a packet header with size 0 where a packet begins. -/
inductive DeclaresZero : List UInt8 → Prop where
  | here {stream : List UInt8} :
      4 ≤ stream.length → declaredSize stream = 0 → DeclaresZero stream
  | later {stream : List UInt8} {n : Nat} :
      packetFraming.size stream = some n → DeclaresZero (stream.drop n) → DeclaresZero stream

/-- What is left of a stream begins where a packet begins. -/
theorem declaresZero_of_residue {stream : List UInt8}
    (h : DeclaresZero (packetFraming.parse stream).2) : DeclaresZero stream := by
  induction stream using packetFraming.parse_induction with
  | residue stream hsize => rwa [packetFraming.parse_of_none hsize] at h
  | frame stream n hsize ih =>
      rw [packetFraming.parse_of_some hsize] at h
      exact .later hsize (ih h)

section Room

variable {connection : ConnectionWrapper} {socketFd : Int} {chunks : List (List UInt8)}

theorem extractPackets_bufferPos_le (connection : ConnectionWrapper) (packetSize : Nat) :
    (extractPackets connection packetSize).2.bufferPos ≤ connection.bufferPos := by
  induction connection, packetSize using extract_induction with
  | stop connection packetSize h => rw [extractPackets_stop h]
  | last connection packetSize h hnext =>
      rw [extractPackets_last h hnext, ConnectionWrapper.shift_bufferPos]
      omega
  | more connection packetSize packetSize' h hnext ih =>
      rw [ConnectionWrapper.shift_bufferPos] at ih
      rw [extractPackets_more h hnext]
      exact ih.trans (Nat.sub_le ..)

theorem receiveConnection_bufferPos_le {bytes : List UInt8}
    (hfits : connection.bufferPos + bytes.length ≤ uint16Max) :
    (receiveConnection connection bytes).2.bufferPos ≤ uint16Max := by
  have hrecv := connection.recv_bufferPos hfits
  unfold receiveConnection
  dsimp only
  split
  · exact hrecv.trans_le hfits
  · exact (extractPackets_bufferPos_le ..).trans (hrecv.trans_le hfits)

/-- The position stays in the array, whatever is received. -/
theorem feed_bufferPos_le (h : Admissible connection chunks)
    (hpos : connection.bufferPos ≤ uint16Max) :
    (feed connection chunks).2.bufferPos ≤ uint16Max := by
  induction chunks generalizing connection with
  | nil => exact hpos
  | cons bytes rest ih =>
      obtain ⟨⟨-, hfits⟩, hrest⟩ := h
      exact ih hrest (receiveConnection_bufferPos_le (by omega))

/-- Without a complete packet the buffer is not full, or its header declares 0. -/
theorem room_of_no_packet (h : packetFraming.size connection.residue = none) :
    connection.bufferPos < uint16Max ∨
      4 ≤ connection.bufferPos ∧ connection.buffer.totalSize = 0 := by
  by_cases hshort : connection.bufferPos < 4
  · left
    unfold uint16Max
    omega
  · have hlong : 4 ≤ connection.bufferPos := by omega
    rw [size_residue_of_header hlong] at h
    have hbound := connection.buffer.totalSize_lt
    by_cases hzero : connection.buffer.totalSize = 0
    · exact .inr ⟨hlong, hzero⟩
    · left
      by_contra hfull
      unfold uint16Max at hfull
      rw [if_pos ⟨by omega, hzero⟩] at h
      cases h

/-- Receiving is safe: whatever a peer sends and however `recv` delivers it, no copy leaves
its array, no integer wraps and the loop ends. Afterwards there is room in the buffer, or
the packet at its front declares size 0; so if no packet does, `recv` is asked for a byte at
least. -/
theorem receive_bounds (h : Admissible (.accepted socketFd) chunks) :
    let connection := (feed (.accepted socketFd) chunks).2
    connection.bufferPos ≤ uint16Max ∧
      (∀ bytes : List UInt8, bytes.length ≤ uint16Max - connection.bufferPos →
        connection.bufferPos + bytes.length ≤ uint16Max ∧
        ∀ fuel, uint16Max < fuel →
          receiveChecked fuel connection bytes = .ok (receiveConnection connection bytes)) ∧
      (connection.bufferPos < uint16Max ∨
        4 ≤ connection.bufferPos ∧ connection.buffer.totalSize = 0) ∧
      (¬ DeclaresZero chunks.flatten → 1 ≤ uint16Max - connection.bufferPos) := by
  intro connection
  have hpos : connection.bufferPos ≤ uint16Max := feed_bufferPos_le h (Nat.zero_le _)
  have hresidue : connection.residue = (packetFraming.parse chunks.flatten).2 :=
    congrArg Prod.snd (feed_accepted h)
  have hnoPacket : packetFraming.size connection.residue = none := by
    rw [hresidue]
    exact packetFraming.size_residue _
  have hroom := room_of_no_packet hnoPacket
  refine ⟨hpos, fun bytes hbytes => ?_, hroom, fun hnone => ?_⟩
  · have hfits : connection.bufferPos + bytes.length ≤ uint16Max := by omega
    exact ⟨hfits, fun fuel => receiveChecked_eq hfits⟩
  · rcases hroom with hroom | ⟨hlong, hzero⟩
    · omega
    · refine absurd (declaresZero_of_residue (.here ?_ ?_)) hnone
      · rw [← hresidue, ConnectionWrapper.length_residue]
        exact hlong
      · rw [← hresidue, declaredSize_residue hlong]
        exact hzero

/-- Half a header is received, then its rest. -/
theorem receive_bounds_header :
    receiveChecked 65536 (feed (.accepted 5) [[1, 13]]).2 [4, 0] =
        .ok (receiveConnection (feed (.accepted 5) [[1, 13]]).2 [4, 0]) ∧
      1 ≤ uint16Max - (feed (.accepted 5) [[1, 13]]).2.bufferPos := by
  have admissible : Admissible (.accepted 5) [[1, 13]] :=
    ⟨⟨by simp, by simp [uint16Max, ConnectionWrapper.accepted]⟩, trivial⟩
  have none : ¬ DeclaresZero [[1, 13]].flatten := by
    intro declares
    cases declares with
    | here hlen => simp at hlen
    | later hsize =>
        have short : packetFraming.size [1, 13] = none := rfl
        cases short.symm.trans hsize
  obtain ⟨hpos, received, -, room⟩ := receive_bounds admissible
  exact ⟨(received [4, 0] (by decide)).2 65536 (by decide), room none⟩

end Room

end ConcurrentTcp
