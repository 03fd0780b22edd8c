import ConcurrentTcp.Base.Framing
import ConcurrentTcp.Server.ClientController

/-!
Receiving packets (`receive_all_connections` in `server/main.cpp`).

`receiveConnection` is what the server thread does with the bytes of one `recv`:
it appends them to the receive buffer and cuts off complete packets. `feed` does
so for a sequence of `recv` results. `feed_parse` is the refinement: whatever the
sequence, packets and residue are those of `packetFraming` on the whole stream.
-/

namespace ConcurrentTcp

open Interaction

/-! ### Extraction -/

/-- The `recv` result is stored behind what is in the buffer; `buffer_pos` is a
`uint16_t`. -/
def ConnectionWrapper.recv (connection : ConnectionWrapper) (bytes : List UInt8) :
    ConnectionWrapper :=
  { connection with
    buffer := connection.buffer.write connection.bufferPos bytes
    bufferPos := (connection.bufferPos + bytes.length) % 2 ^ 16 }

/-- What the extraction loop does after it has pushed a packet: the connection,
and the next `packet_size` unless the loop breaks. -/
def ConnectionWrapper.shift (connection : ConnectionWrapper) (packetSize : Nat) :
    ConnectionWrapper × Option Nat :=
  let delta := connection.bufferPos - packetSize
  if delta = 0 then ({ connection with bufferPos := 0 }, none)
  else
    let connection := { connection with
      buffer := connection.buffer.moveDown packetSize delta
      bufferPos := delta }
    if connection.bufferPos < 4 then (connection, none)
    else (connection, some connection.buffer.totalSize)

theorem ConnectionWrapper.shift_bufferPos (connection : ConnectionWrapper) (packetSize : Nat) :
    (connection.shift packetSize).1.bufferPos = connection.bufferPos - packetSize := by
  unfold shift
  dsimp only
  split
  · rename_i hdelta
    exact hdelta.symm
  · split <;> rfl

/-- The extraction loop: the packets in the order they are pushed, and the
connection when the loop ends. -/
def extractPackets (connection : ConnectionWrapper) (packetSize : Nat) :
    List (List UInt8) × ConnectionWrapper :=
  if _hfits : packetSize ≤ connection.bufferPos then
    if _hzero : packetSize = 0 then ([], connection)
    else
      let packet := connection.buffer.read 0 packetSize
      match _hshift : connection.shift packetSize with
      | (connection', none) => ([packet], connection')
      | (connection', some packetSize') =>
          let rest := extractPackets connection' packetSize'
          (packet :: rest.1, rest.2)
  else ([], connection)
termination_by connection.bufferPos
decreasing_by
  have hpos := connection.shift_bufferPos packetSize
  rw [_hshift] at hpos
  dsimp only at hpos
  omega

/-- The loop ends. -/
theorem extractPackets_stop {connection : ConnectionWrapper} {packetSize : Nat}
    (h : ¬ (packetSize ≤ connection.bufferPos ∧ packetSize ≠ 0)) :
    extractPackets connection packetSize = ([], connection) := by
  rw [extractPackets]
  by_cases hfits : packetSize ≤ connection.bufferPos
  · have hzero : packetSize = 0 := by
      by_contra hne
      exact h ⟨hfits, hne⟩
    rw [dif_pos hfits, dif_pos hzero]
  · rw [dif_neg hfits]

/-- The loop breaks after a packet. -/
theorem extractPackets_last {connection : ConnectionWrapper} {packetSize : Nat}
    (h : packetSize ≤ connection.bufferPos ∧ packetSize ≠ 0)
    (hnext : (connection.shift packetSize).2 = none) :
    extractPackets connection packetSize =
      ([connection.buffer.read 0 packetSize], (connection.shift packetSize).1) := by
  rw [extractPackets, dif_pos h.1, dif_neg h.2]
  split
  · rename_i connection' hshift
    rw [hshift]
  · rename_i connection' packetSize' hshift
    rw [hshift] at hnext
    cases hnext

/-- The loop goes on after a packet. -/
theorem extractPackets_more {connection : ConnectionWrapper} {packetSize packetSize' : Nat}
    (h : packetSize ≤ connection.bufferPos ∧ packetSize ≠ 0)
    (hnext : (connection.shift packetSize).2 = some packetSize') :
    extractPackets connection packetSize =
      (connection.buffer.read 0 packetSize ::
          (extractPackets (connection.shift packetSize).1 packetSize').1,
        (extractPackets (connection.shift packetSize).1 packetSize').2) := by
  rw [extractPackets, dif_pos h.1, dif_neg h.2]
  split
  · rename_i connection' hshift
    rw [hshift] at hnext
    cases hnext
  · rename_i connection' packetSize'' hshift
    rw [hshift] at hnext ⊢
    cases hnext
    rfl

/-- The induction rule of the loop, which consumes what is in the buffer. -/
theorem extract_induction {motive : ConnectionWrapper → Nat → Prop}
    (stop : ∀ connection packetSize,
      ¬ (packetSize ≤ connection.bufferPos ∧ packetSize ≠ 0) → motive connection packetSize)
    (last : ∀ connection packetSize, packetSize ≤ connection.bufferPos ∧ packetSize ≠ 0 →
      (connection.shift packetSize).2 = none → motive connection packetSize)
    (more : ∀ connection packetSize packetSize',
      packetSize ≤ connection.bufferPos ∧ packetSize ≠ 0 →
      (connection.shift packetSize).2 = some packetSize' →
      motive (connection.shift packetSize).1 packetSize' → motive connection packetSize)
    (connection : ConnectionWrapper) (packetSize : Nat) : motive connection packetSize := by
  by_cases h : packetSize ≤ connection.bufferPos ∧ packetSize ≠ 0
  · cases hnext : (connection.shift packetSize).2 with
    | none => exact last _ _ h hnext
    | some packetSize' =>
        have hpos := connection.shift_bufferPos packetSize
        exact more _ _ _ h hnext (extract_induction stop last more _ packetSize')
  · exact stop _ _ h
termination_by connection.bufferPos
decreasing_by
  rw [hpos]
  omega

/-- `receive_all_connections` for one connection whose `recv` returned `bytes`. -/
def receiveConnection (connection : ConnectionWrapper) (bytes : List UInt8) :
    List (List UInt8) × ConnectionWrapper :=
  let connection := connection.recv bytes
  if connection.bufferPos < 4 then ([], connection)
  else extractPackets connection connection.buffer.totalSize

/-- Successive `recv` results of one connection. -/
def feed (connection : ConnectionWrapper) :
    List (List UInt8) → List (List UInt8) × ConnectionWrapper
  | [] => ([], connection)
  | bytes :: rest =>
      let first := receiveConnection connection bytes
      let later := feed first.2 rest
      (first.1 ++ later.1, later.2)

/-- Each result is not empty and fits the free part of the buffer. -/
def Admissible (connection : ConnectionWrapper) : List (List UInt8) → Prop
  | [] => True
  | bytes :: rest =>
      (bytes ≠ [] ∧ bytes.length ≤ uint16Max - connection.bufferPos) ∧
        Admissible (receiveConnection connection bytes).2 rest

/-- `buffer[0..buffer_pos)` -/
def ConnectionWrapper.residue (connection : ConnectionWrapper) : List UInt8 :=
  connection.buffer.read 0 connection.bufferPos

/-! ### The reference parser -/

/-- The little-endian size at offsets 2 and 3. -/
def declaredSize (bytes : List UInt8) : Nat :=
  (bytes.getD 2 0).toNat + 256 * (bytes.getD 3 0).toNat

theorem declaredSize_append {xs : List UInt8} (h : 4 ≤ xs.length) (ys : List UInt8) :
    declaredSize (xs ++ ys) = declaredSize xs := by
  unfold declaredSize
  rw [List.getD_append _ _ _ _ (by omega), List.getD_append _ _ _ _ (by omega)]

/-- The header of a buffer, read as bytes. -/
theorem declaredSize_read (b : Buffer) {len : Nat} (h : 4 ≤ len) :
    declaredSize (b.read 0 len) = b.totalSize := by
  have hbyte : ∀ i < 4, (b.read 0 len).getD i 0 = b i := by
    intro i hi
    rw [List.getD_eq_getElem?_getD, Buffer.getElem?_read _ _ (by omega), Nat.zero_add,
      Option.getD_some]
  unfold declaredSize Buffer.totalSize Buffer.u16
  rw [hbyte 2 (by omega), hbyte 3 (by omega)]

/-- A packet is complete when its header and as many bytes as its non-zero size
says are there. -/
def packetSize? (bytes : List UInt8) : Option Nat :=
  if 4 ≤ bytes.length ∧ declaredSize bytes ≠ 0 ∧ declaredSize bytes ≤ bytes.length then
    some (declaredSize bytes)
  else none

theorem packetSize?_eq_some {bytes : List UInt8} {n : Nat} :
    packetSize? bytes = some n ↔
      4 ≤ bytes.length ∧ n ≠ 0 ∧ n ≤ bytes.length ∧ declaredSize bytes = n := by
  unfold packetSize?
  split
  · rename_i h
    constructor
    · rintro ⟨⟩
      exact ⟨h.1, h.2.1, h.2.2, rfl⟩
    · rintro ⟨-, -, -, rfl⟩
      rfl
  · rename_i h
    constructor
    · rintro ⟨⟩
    · rintro ⟨hlen, hne, hle, rfl⟩
      exact absurd ⟨hlen, hne, hle⟩ h

/-- The framing of the wire protocol. -/
def packetFraming : Framing UInt8 where
  size := packetSize?
  size_pos h := Nat.pos_of_ne_zero (packetSize?_eq_some.mp h).2.1
  size_le h := (packetSize?_eq_some.mp h).2.2.1
  size_append h ys := by
    obtain ⟨hlen, hne, hle, hsize⟩ := packetSize?_eq_some.mp h
    refine packetSize?_eq_some.mpr ⟨?_, hne, ?_, ?_⟩
    · rw [List.length_append]
      omega
    · rw [List.length_append]
      omega
    · rw [declaredSize_append hlen, hsize]

/-! ### The buffer as a list -/

section Residue

variable {connection : ConnectionWrapper}

@[simp] theorem ConnectionWrapper.length_residue (connection : ConnectionWrapper) :
    connection.residue.length = connection.bufferPos :=
  Buffer.length_read ..

theorem ConnectionWrapper.residue_accepted (socketFd : Int) :
    (ConnectionWrapper.accepted socketFd).residue = [] := rfl

/-- The header in the buffer is the header of the residue. -/
theorem declaredSize_residue (h : 4 ≤ connection.bufferPos) :
    declaredSize connection.residue = connection.buffer.totalSize :=
  declaredSize_read _ h

/-- With a header in the buffer, the packet is complete when its size fits. -/
theorem size_residue_of_header (h : 4 ≤ connection.bufferPos) :
    packetFraming.size connection.residue =
      if connection.buffer.totalSize ≤ connection.bufferPos ∧ connection.buffer.totalSize ≠ 0 then
        some connection.buffer.totalSize
      else none := by
  show packetSize? connection.residue = _
  rw [packetSize?, declaredSize_residue h, ConnectionWrapper.length_residue]
  split
  · rename_i hcut
    rw [if_pos ⟨hcut.2.2, hcut.2.1⟩]
  · rename_i hcut
    rw [if_neg fun hfits => hcut ⟨h, hfits.2, hfits.1⟩]

/-- Without one, no packet is. -/
theorem size_residue_of_short (h : connection.bufferPos < 4) :
    packetFraming.size connection.residue = none := by
  show packetSize? connection.residue = none
  rw [packetSize?, ConnectionWrapper.length_residue, if_neg (by omega)]

/-- A `recv` result that fits is appended. -/
theorem ConnectionWrapper.residue_recv {bytes : List UInt8}
    (hne : bytes ≠ []) (hfits : bytes.length ≤ uint16Max - connection.bufferPos) :
    (connection.recv bytes).residue = connection.residue ++ bytes := by
  have hlen : 0 < bytes.length := List.length_pos_of_ne_nil hne
  have hpos : (connection.recv bytes).bufferPos = connection.bufferPos + bytes.length := by
    unfold uint16Max at hfits
    exact Nat.mod_eq_of_lt (by omega)
  unfold residue
  rw [hpos, Buffer.read_add, Nat.zero_add]
  have hold : (connection.recv bytes).buffer.read 0 connection.bufferPos =
      connection.buffer.read 0 connection.bufferPos :=
    Buffer.read_write_of_le _ _ _ (by omega)
  have hnew : (connection.recv bytes).buffer.read connection.bufferPos bytes.length = bytes :=
    Buffer.read_write ..
  rw [hold, hnew]

/-- A packet is the front of the residue. -/
theorem read_eq_take_residue {packetSize : Nat} (h : packetSize ≤ connection.bufferPos) :
    connection.buffer.read 0 packetSize = connection.residue.take packetSize := by
  have hsplit := Buffer.read_add connection.buffer 0 packetSize (connection.bufferPos - packetSize)
  rw [Nat.add_sub_cancel' h] at hsplit
  unfold ConnectionWrapper.residue
  rw [hsplit, List.take_left' (Buffer.length_read ..)]

/-- Shifting drops the packet from the residue. -/
theorem ConnectionWrapper.residue_shift {packetSize : Nat} (h : packetSize ≤ connection.bufferPos) :
    (connection.shift packetSize).1.residue = connection.residue.drop packetSize := by
  have hsplit := Buffer.read_add connection.buffer 0 packetSize (connection.bufferPos - packetSize)
  rw [Nat.add_sub_cancel' h, Nat.zero_add] at hsplit
  have hdrop : connection.residue.drop packetSize =
      connection.buffer.read packetSize (connection.bufferPos - packetSize) := by
    unfold residue
    rw [hsplit, List.drop_left' (Buffer.length_read ..)]
  rw [hdrop]
  unfold shift residue
  dsimp only
  split
  · rename_i hdelta
    rw [hdelta]
    rfl
  · split
    · exact Buffer.read_moveDown ..
    · exact Buffer.read_moveDown ..

/-- The loop goes on exactly when a header is left, with its size. -/
theorem ConnectionWrapper.shift_next (connection : ConnectionWrapper) (packetSize : Nat) :
    (connection.shift packetSize).2 =
      if (connection.shift packetSize).1.bufferPos < 4 then none
      else some (connection.shift packetSize).1.buffer.totalSize := by
  unfold shift
  dsimp only
  split
  · rfl
  · split
    · rfl
    · rfl

end Residue

/-! ### Refinement -/

/-- The loop computes the packets and the residue of the parser; it is entered
with a header in the buffer. -/
theorem extractPackets_parse {connection : ConnectionWrapper} {packetSize : Nat}
    (h : 4 ≤ connection.bufferPos) (hentry : packetSize = connection.buffer.totalSize) :
    packetFraming.parse connection.residue =
      ((extractPackets connection packetSize).1,
        (extractPackets connection packetSize).2.residue) := by
  induction connection, packetSize using extract_induction with
  | stop connection packetSize hstop =>
      subst hentry
      rw [extractPackets_stop hstop]
      apply packetFraming.parse_of_none
      rw [size_residue_of_header h, if_neg hstop]
  | last connection packetSize hcut hnext =>
      subst hentry
      have hsize : packetFraming.size connection.residue = some connection.buffer.totalSize := by
        rw [size_residue_of_header h, if_pos hcut]
      have hshort : (connection.shift connection.buffer.totalSize).1.bufferPos < 4 := by
        by_contra hlong
        rw [ConnectionWrapper.shift_next, if_neg hlong] at hnext
        cases hnext
      rw [extractPackets_last hcut hnext, packetFraming.parse_of_some hsize,
        ← read_eq_take_residue hcut.1, ← ConnectionWrapper.residue_shift hcut.1,
        packetFraming.parse_of_none (size_residue_of_short hshort)]
  | more connection packetSize packetSize' hcut hnext ih =>
      subst hentry
      have hsize : packetFraming.size connection.residue = some connection.buffer.totalSize := by
        rw [size_residue_of_header h, if_pos hcut]
      have hlong : ¬ (connection.shift connection.buffer.totalSize).1.bufferPos < 4 := by
        intro hshort
        rw [ConnectionWrapper.shift_next, if_pos hshort] at hnext
        cases hnext
      -- The loop goes on with the size in the header of what is left.
      have hleft : packetSize' =
          (connection.shift connection.buffer.totalSize).1.buffer.totalSize := by
        have hnext' := hnext
        rw [ConnectionWrapper.shift_next, if_neg hlong] at hnext'
        exact (Option.some.inj hnext').symm
      rw [extractPackets_more hcut hnext, packetFraming.parse_of_some hsize,
        ← read_eq_take_residue hcut.1, ← ConnectionWrapper.residue_shift hcut.1,
        ih (Nat.le_of_not_lt hlong) hleft]

theorem receiveConnection_parse {connection : ConnectionWrapper} {bytes : List UInt8}
    (hne : bytes ≠ []) (hfits : bytes.length ≤ uint16Max - connection.bufferPos) :
    packetFraming.parse (connection.residue ++ bytes) =
      ((receiveConnection connection bytes).1, (receiveConnection connection bytes).2.residue) := by
  rw [← ConnectionWrapper.residue_recv hne hfits]
  unfold receiveConnection
  dsimp only
  split
  · rename_i hshort
    exact packetFraming.parse_of_none (size_residue_of_short hshort)
  · exact extractPackets_parse (by omega) rfl

/-- Feeding any admissible sequence gives the packets and the residue of the
whole stream; the induction carries that the residue has no complete packet. -/
theorem feed_parse {connection : ConnectionWrapper} {chunks : List (List UInt8)}
    (hresidue : packetFraming.size connection.residue = none)
    (h : Admissible connection chunks) :
    packetFraming.parse (connection.residue ++ chunks.flatten) =
      ((feed connection chunks).1, (feed connection chunks).2.residue) := by
  induction chunks generalizing connection with
  | nil =>
      rw [List.flatten_nil, List.append_nil]
      exact packetFraming.parse_of_none hresidue
  | cons bytes rest ih =>
      obtain ⟨⟨hne, hfits⟩, hrest⟩ := h
      have hfirst := receiveConnection_parse hne hfits
      have hleft : packetFraming.size (receiveConnection connection bytes).2.residue = none := by
        have := packetFraming.size_residue (connection.residue ++ bytes)
        rwa [hfirst] at this
      rw [List.flatten_cons, ← List.append_assoc, packetFraming.parse_append, hfirst,
        ih hleft hrest]
      rfl

/-! ### Streams of a connection -/

section Stream

variable {socketFd : Int} {chunks : List (List UInt8)}

/-- A new connection's packets and residue are those of the whole stream. -/
theorem feed_accepted (h : Admissible (.accepted socketFd) chunks) :
    ((feed (.accepted socketFd) chunks).1, (feed (.accepted socketFd) chunks).2.residue) =
      packetFraming.parse chunks.flatten := by
  have hresidue : packetFraming.size (ConnectionWrapper.accepted socketFd).residue = none := rfl
  have hparse := feed_parse hresidue h
  rw [ConnectionWrapper.residue_accepted, List.nil_append] at hparse
  exact hparse.symm

/-- A packet as a client means to send it. -/
def WellFormedPacket (packet : List UInt8) : Prop :=
  4 ≤ packet.length ∧ packet.length ≤ uint16Max ∧ declaredSize packet = packet.length

instance (packet : List UInt8) : Decidable (WellFormedPacket packet) := by
  unfold WellFormedPacket; infer_instance

/-- However a stream is cut into what `recv` returns, the framing is that of the reference parser
on the whole stream; it loses nothing, and recovers well-formed packets. `Admissible` asks only
for pieces that are not empty and fit the room left in the buffer. -/
theorem framing_of_stream (h : Admissible (.accepted socketFd) chunks) :
    ((feed (.accepted socketFd) chunks).1, (feed (.accepted socketFd) chunks).2.residue) =
        packetFraming.parse chunks.flatten ∧
      (feed (.accepted socketFd) chunks).1.flatten ++
          (feed (.accepted socketFd) chunks).2.residue = chunks.flatten ∧
      ∀ packets, (∀ packet ∈ packets, WellFormedPacket packet) →
        chunks.flatten = packets.flatten →
        (feed (.accepted socketFd) chunks).1 = packets ∧
          (feed (.accepted socketFd) chunks).2.residue = [] := by
  have hfeed := feed_accepted h
  refine ⟨hfeed, ?_, fun packets wellFormed hstream => ?_⟩
  · have hflat := packetFraming.flatten_parse chunks.flatten
    rwa [← hfeed] at hflat
  · have hparse : packetFraming.parse packets.flatten = (packets, []) := by
      apply packetFraming.parse_flatten
      intro packet hpacket
      obtain ⟨hlen, -, hsize⟩ := wellFormed packet hpacket
      exact packetSize?_eq_some.mpr ⟨hlen, by omega, Nat.le_refl _, hsize⟩
    rw [hstream, hparse] at hfeed
    exact Prod.mk.inj hfeed

end Stream

/-- Two pings, cut inside the header of the first. -/
theorem framing_of_two_pings :
    (feed (.accepted 5) [[1, 13, 4], [0, 1, 13, 4, 0]]).1 = [[1, 13, 4, 0], [1, 13, 4, 0]] ∧
      (feed (.accepted 5) [[1, 13, 4], [0, 1, 13, 4, 0]]).2.residue = [] := by
  have admissible : Admissible (.accepted 5) [[1, 13, 4], [0, 1, 13, 4, 0]] :=
    ⟨⟨by decide, by decide⟩, ⟨by decide, by decide⟩, trivial⟩
  exact (framing_of_stream admissible).2.2 _ (by decide) (by decide)

end ConcurrentTcp
