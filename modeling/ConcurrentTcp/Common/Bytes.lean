import Mathlib.Algebra.Group.Int.Defs
import Mathlib.Algebra.Group.Nat.Defs
import Mathlib.Data.List.GetD

/-!
Bytes, C++ strings and raw memory.

A `Str` is a `std::string`: bytes with no encoding. A `Buffer` is an array of
bytes addressed by offset; reading and writing multi-byte integers is
little-endian, as on the platforms the server and the client are built for.
-/

namespace ConcurrentTcp

/-- A C++ string: a sequence of bytes. -/
abbrev Str := List UInt8

/-- A string literal of the source. -/
def ascii (s : String) : Str := s.toList.map Char.toUInt8

/-- The path separator. -/
def slash : UInt8 := 47

/-- Raw memory: the byte at each offset. -/
abbrev Buffer := Nat → UInt8

namespace Buffer

/-- Value-initialised memory. -/
def zero : Buffer := fun _ => 0

/-- `memcpy` of `bytes` to offset `off`. -/
def write (b : Buffer) (off : Nat) (bytes : List UInt8) : Buffer :=
  fun i => if off ≤ i ∧ i < off + bytes.length then bytes.getD (i - off) 0 else b i

/-- The `len` bytes at offset `off`. -/
def read (b : Buffer) (off len : Nat) : List UInt8 :=
  (List.range len).map fun i => b (off + i)

/-- `memmove(b, b + from, len)`. -/
def moveDown (b : Buffer) (start len : Nat) : Buffer :=
  fun i => if i < len then b (start + i) else b i

/-- A `uint16_t` field. -/
def u16 (b : Buffer) (off : Nat) : Nat := (b off).toNat + 256 * (b (off + 1)).toNat

/-- A `uint64_t` field. -/
def u64 (b : Buffer) (off : Nat) : Nat :=
  (List.range 8).foldr (fun i n => (b (off + i)).toNat + 256 * n) 0

/-- The C string at `off`, when its terminator is among the next `len` bytes.
`none` means that reading it runs past the object. -/
def cString (b : Buffer) (off : Nat) : (len : Nat) → Option Str
  | 0 => none
  | len + 1 => if b off = 0 then some [] else (cString b (off + 1) len).map (b off :: ·)

@[simp] theorem length_read (b : Buffer) (off len : Nat) : (b.read off len).length = len := by
  simp [read]

theorem getElem?_read (b : Buffer) (off : Nat) {len i : Nat} (h : i < len) :
    (b.read off len)[i]? = some (b (off + i)) := by
  simp [read, h]

theorem read_add (b : Buffer) (off m n : Nat) :
    b.read off (m + n) = b.read off m ++ b.read (off + m) n := by
  simp [read, List.range_add, Nat.add_assoc]

/-- A write leaves the bytes outside it unchanged. -/
theorem write_of_lt (b : Buffer) (off : Nat) (bytes : List UInt8) {i : Nat} (h : i < off) :
    b.write off bytes i = b i := by
  simp only [write]
  rw [if_neg (by omega)]

theorem write_of_le (b : Buffer) (off : Nat) (bytes : List UInt8) {i : Nat}
    (h : off + bytes.length ≤ i) : b.write off bytes i = b i := by
  simp only [write]
  rw [if_neg (by omega)]

/-- Reading back what was written. -/
theorem read_write (b : Buffer) (off : Nat) (bytes : List UInt8) :
    (b.write off bytes).read off bytes.length = bytes := by
  apply List.ext_getElem?
  intro i
  by_cases h : i < bytes.length
  · rw [getElem?_read _ _ h, List.getElem?_eq_getElem h]
    simp only [write]
    rw [if_pos (by omega), show off + i - off = i from by omega, List.getD_eq_getElem _ _ h]
  · rw [List.getElem?_eq_none (by simpa using h), List.getElem?_eq_none (by simpa using h)]

/-- Reading below a write. -/
theorem read_write_of_le (b : Buffer) (off : Nat) (bytes : List UInt8) {start len : Nat}
    (h : start + len ≤ off) : (b.write off bytes).read start len = b.read start len := by
  apply List.map_congr_left
  intro i hi
  exact write_of_lt b off bytes (by have := List.mem_range.mp hi; omega)

@[simp] theorem write_nil (b : Buffer) (off : Nat) : b.write off [] = b := by
  funext i
  simp only [write, List.length_nil]
  rw [if_neg (by omega)]

/-- Two writes, the second behind the first. -/
theorem write_append (b : Buffer) (off : Nat) (xs ys : List UInt8) :
    (b.write off xs).write (off + xs.length) ys = b.write off (xs ++ ys) := by
  funext i
  by_cases hfirst : i < off + xs.length
  · rw [write_of_lt _ _ _ hfirst]
    simp only [write]
    by_cases hin : off ≤ i
    · rw [if_pos ⟨hin, hfirst⟩, if_pos ⟨hin, by rw [List.length_append]; omega⟩,
        List.getD_append _ _ _ _ (by omega)]
    · rw [if_neg (by omega), if_neg (by omega)]
  · simp only [write, List.length_append]
    by_cases hin : i < off + xs.length + ys.length
    · rw [if_pos ⟨by omega, hin⟩, if_pos ⟨by omega, by omega⟩,
        List.getD_append_right _ _ _ _ (by omega), Nat.sub_add_eq]
    · rw [if_neg (by omega), if_neg (by omega), if_neg (by omega)]

/-- `memmove` to the front of the buffer. -/
theorem read_moveDown (b : Buffer) (start len : Nat) :
    (b.moveDown start len).read 0 len = b.read start len := by
  apply List.map_congr_left
  intro i hi
  have : i < len := List.mem_range.mp hi
  simp [moveDown, this]

/-- A C string in the middle of some bytes. -/
theorem cString_getD (front : List UInt8) {s rest : List UInt8} {len : Nat} (hs : 0 ∉ s)
    (hlen : s.length < len) :
    cString (fun i => (front ++ s ++ 0 :: rest).getD i 0) front.length len = some s := by
  induction s generalizing front len with
  | nil =>
      obtain ⟨len, rfl⟩ := Nat.exists_eq_add_of_lt hlen
      have hzero : (front ++ [] ++ 0 :: rest).getD front.length 0 = 0 := by
        rw [List.append_nil, List.getD_append_right _ _ _ _ (Nat.le_refl _), Nat.sub_self]
        rfl
      rw [cString, if_pos hzero]
  | cons b bs ih =>
      obtain ⟨hb, hbs⟩ := not_or.mp (mt List.mem_cons.mpr hs)
      obtain ⟨len, rfl⟩ := Nat.exists_eq_add_of_lt hlen
      have hbyte : (front ++ b :: bs ++ 0 :: rest).getD front.length 0 = b := by
        rw [List.append_assoc, List.getD_append_right _ _ _ _ (Nat.le_refl _), Nat.sub_self]
        rfl
      have hroom : bs.length < bs.length + 1 + len := by omega
      have htail := ih (front ++ [b]) hbs hroom
      simp only [List.length_append, List.length_singleton, List.append_assoc,
        List.cons_append, List.nil_append] at htail
      rw [cString, if_neg (by rw [hbyte]; exact Ne.symm hb), hbyte]
      simp only [List.append_assoc, List.cons_append]
      rw [List.length_cons, htail]
      rfl

/-- Bytes that were read elsewhere and stored at the front. -/
theorem write_read (b p : Buffer) {n i : Nat} (h : i < n) : (b.write 0 (p.read 0 n)) i = p i := by
  simp only [write, length_read]
  rw [if_pos (by omega), List.getD_eq_getElem?_getD, Nat.sub_zero, getElem?_read _ _ h,
    Nat.zero_add, Option.getD_some]

theorem read_congr {b b' : Buffer} {off len : Nat}
    (h : ∀ i, off ≤ i → i < off + len → b i = b' i) : b.read off len = b'.read off len := by
  apply List.map_congr_left
  intro i hi
  have hlt : i < len := List.mem_range.mp hi
  exact h _ (by omega) (by omega)

theorem u16_congr {b b' : Buffer} {off : Nat} (h : ∀ i, off ≤ i → i < off + 2 → b i = b' i) :
    b.u16 off = b'.u16 off := by
  simp only [u16]
  rw [h off (by omega) (by omega), h (off + 1) (by omega) (by omega)]

theorem u64_congr {b b' : Buffer} {off : Nat} (h : ∀ i, off ≤ i → i < off + 8 → b i = b' i) :
    b.u64 off = b'.u64 off := by
  have hfirst : b off = b' off := h off (by omega) (by omega)
  have hbyte : ∀ i, i < 8 → b (off + i) = b' (off + i) := fun i hi => h _ (by omega) (by omega)
  simp [u64, List.range_succ, hfirst, hbyte]

/-- What ends among the next bytes also ends among more. -/
theorem cString_mono {b : Buffer} {off len len' : Nat} {s : Str} (hlen : len ≤ len')
    (h : b.cString off len = some s) : b.cString off len' = some s := by
  induction len generalizing off len' s with
  | zero => cases h
  | succ len ih =>
      obtain ⟨len', rfl⟩ := Nat.exists_eq_add_one_of_ne_zero (Nat.ne_zero_of_lt hlen)
      rw [cString] at h ⊢
      by_cases hzero : b off = 0
      · rwa [if_pos hzero] at h ⊢
      · rw [if_neg hzero] at h ⊢
        obtain ⟨rest, hrest, rfl⟩ := Option.map_eq_some_iff.mp h
        rw [ih (by omega) hrest]
        rfl

theorem length_lt_of_cString {b : Buffer} {off len : Nat} {s : Str}
    (h : b.cString off len = some s) : s.length < len := by
  induction len generalizing off s with
  | zero => cases h
  | succ len ih =>
      rw [cString] at h
      split at h
      · cases h
        exact Nat.succ_pos len
      · obtain ⟨rest, hrest, rfl⟩ := Option.map_eq_some_iff.mp h
        exact Nat.succ_lt_succ (ih hrest)

/-- The string and its NUL are in the memory. -/
theorem read_of_cString {b : Buffer} {off len : Nat} {s : Str}
    (h : b.cString off len = some s) : b.read off (s.length + 1) = s ++ [0] := by
  induction len generalizing off s with
  | zero => cases h
  | succ len ih =>
      rw [cString] at h
      by_cases hzero : b off = 0
      · rw [if_pos hzero] at h
        cases h
        simp [read, hzero]
      · rw [if_neg hzero] at h
        obtain ⟨t, ht, rfl⟩ := Option.map_eq_some_iff.mp h
        have hsplit := read_add b off 1 (t.length + 1)
        rw [ih ht] at hsplit
        rw [List.length_cons, Nat.add_comm (t.length + 1) 1, hsplit]
        simp [read]

/-- Where there is a NUL there is a string before it. -/
theorem exists_cString {b : Buffer} {off n : Nat} (h : b (off + n) = 0) :
    ∃ s, b.cString off (n + 1) = some s := by
  induction n generalizing off with
  | zero => exact ⟨[], if_pos h⟩
  | succ n ih =>
      rw [cString]
      by_cases hzero : b off = 0
      · exact ⟨[], if_pos hzero⟩
      · obtain ⟨t, ht⟩ := ih (by rwa [Nat.add_assoc, Nat.add_comm 1 n])
        exact ⟨b off :: t, by rw [if_neg hzero, ht]; rfl⟩

/-- A C string only depends on the bytes it may be in. -/
theorem cString_congr {b b' : Buffer} {off len : Nat}
    (h : ∀ i, off ≤ i → i < off + len → b i = b' i) : b.cString off len = b'.cString off len := by
  induction len generalizing off with
  | zero => rfl
  | succ len ih =>
      have here := h off (Nat.le_refl _) (by omega)
      have later : b.cString (off + 1) len = b'.cString (off + 1) len :=
        ih fun i hi hlt => h i (by omega) (by omega)
      rw [cString, cString, here, later]

theorem write_cons (b : Buffer) (off : Nat) (x : UInt8) (bytes : List UInt8) :
    b.write off (x :: bytes) = (b.write off [x]).write (off + 1) bytes := by
  funext i
  simp only [write, List.length_cons, List.length_nil]
  by_cases hi : i = off
  · subst hi
    rw [if_pos (by omega), if_neg (by omega), if_pos (by omega), Nat.sub_self,
      List.getD_cons_zero, List.getD_cons_zero]
  · obtain hlt | ⟨n, rfl⟩ : i < off ∨ ∃ n, i = off + 1 + n := by
      rcases Nat.lt_or_ge i off with hlt | hge
      · exact .inl hlt
      · exact .inr ⟨i - (off + 1), by omega⟩
    · rw [if_neg (by omega), if_neg (by omega), if_neg (by omega)]
    · rw [show off + 1 + n - off = n + 1 by omega, show off + 1 + n - (off + 1) = n by omega,
        List.getD_cons_succ]
      by_cases hn : n < bytes.length
      · rw [if_pos (by omega), if_pos (by omega)]
      · rw [if_neg (by omega), if_neg (by omega), if_neg (by omega)]

/-- A string that `strcpy` stored is read back. -/
theorem cString_write (b : Buffer) (off : Nat) {s : Str} {len : Nat} (hs : 0 ∉ s)
    (hlen : s.length < len) : (b.write off (s ++ [0])).cString off len = some s := by
  induction s generalizing b off len with
  | nil =>
      obtain ⟨len, rfl⟩ := Nat.exists_eq_add_of_lt hlen
      simp [cString, write]
  | cons x xs ih =>
      obtain ⟨hx, hxs⟩ := not_or.mp (mt List.mem_cons.mpr hs)
      obtain ⟨len, rfl⟩ := Nat.exists_eq_add_of_lt hlen
      have hbyte : (b.write off (x :: xs ++ [0])) off = x := by simp [write]
      have hroom : xs.length < xs.length + 1 + len := by omega
      have later := ih (b.write off [x]) (off + 1) hxs hroom
      rw [cString, if_neg (by rw [hbyte]; exact Ne.symm hx), hbyte, List.cons_append, write_cons,
        List.length_cons, later]
      rfl

/-- A string is read from a field exactly when it leaves room for its terminator. -/
theorem cString_write_iff (b : Buffer) (off : Nat) {s : Str} {len : Nat} (hs : 0 ∉ s) :
    (b.write off (s ++ [0])).cString off len = some s ↔ s.length < len :=
  ⟨length_lt_of_cString, cString_write b off hs⟩

/-- A field below a write. -/
theorem cString_write_of_le (b : Buffer) (off : Nat) (bytes : List UInt8) {start len : Nat}
    (h : start + len ≤ off) : (b.write off bytes).cString start len = b.cString start len :=
  cString_congr fun _ _ hi => write_of_lt b off bytes (Nat.lt_of_lt_of_le hi h)

end Buffer

/-- The bytes of a `uint16_t`. -/
def le16 (n : Nat) : List UInt8 := [UInt8.ofNat n, UInt8.ofNat (n / 256)]

/-- The bytes of a `uint64_t`. -/
def le64 (n : Nat) : List UInt8 := (List.range 8).map fun i => UInt8.ofNat (n / 256 ^ i)

@[simp] theorem length_le64 (n : Nat) : (le64 n).length = 8 := by
  rw [le64, List.length_map, List.length_range]

/-- A stored integer is read back. -/
theorem Buffer.u64_write (b : Buffer) (off n : Nat) :
    (b.write off (le64 n)).u64 off = n % 2 ^ 64 := by
  simp [u64, write, le64, List.range_succ]
  omega

/-- What `strncpy` stores in a field of `len` bytes. -/
def strncpy (s : Str) (len : Nat) : List UInt8 := (s ++ List.replicate len 0).take len

@[simp] theorem length_strncpy (s : Str) (len : Nat) : (strncpy s len).length = len := by
  simp [strncpy]

/-- A string that leaves room for its terminator is stored whole. -/
theorem strncpy_of_lt {s : Str} {len : Nat} (h : s.length < len) :
    ∃ rest, strncpy s len = s ++ 0 :: rest := by
  refine ⟨List.replicate (len - s.length - 1) 0, ?_⟩
  unfold strncpy
  rw [List.take_append, List.take_of_length_le (Nat.le_of_lt h), List.take_replicate,
    ← List.replicate_succ]
  rw [show min (len - s.length) len = len - s.length - 1 + 1 from by omega]

end ConcurrentTcp
