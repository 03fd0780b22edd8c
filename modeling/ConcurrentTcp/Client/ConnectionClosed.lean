import ConcurrentTcp.Base.Environment
import ConcurrentTcp.Client.Receive

/-!
When the server closes the connection (`recv_from_server` in `common/utils.hpp`).

`recv` returns 0 again and again after a close, and -1 when it fails. The function looks
for -1 only: it ends well when `recv` fails in time, or when the whole response has come
before the close, its header in one piece (`notices_close_iff`).
-/

namespace ConcurrentTcp

open Interaction

/-! ### Results of `recv` -/

/-- What the `i`-th `recv` finds: `none` is a failure, and no bytes are a close. -/
abbrev RecvResults := Nat → Option (List UInt8)

/-- A call stores no more bytes than it asks for. -/
def RecvResults.answers (results : RecvResults) : Environment RecvOp RecvAns :=
  fun past op => (results past.length).map (·.take op.length)

/-- The run of a program, after `past`. -/
def RecvResults.run {α : Type} (results : RecvResults) (past : List (Event RecvOp RecvAns))
    (p : RecvProg α) : List (Event RecvOp RecvAns) × Except RecvFault α :=
  runIn (fun _ => true) results.answers past p

/-- The bytes that were stored. -/
def received (events : List (Event RecvOp RecvAns)) : List UInt8 :=
  events.flatMap fun e => e.ans.getD []

@[simp] theorem received_nil : received [] = [] := rfl

theorem received_cons_some (op : RecvOp) (bytes : List UInt8)
    (events : List (Event RecvOp RecvAns)) :
    received (⟨op, some bytes⟩ :: events) = bytes ++ received events := rfl

namespace RecvResults

variable {results : RecvResults}

/-- The missing bytes come, and no call fails before. -/
inductive Completes (results : RecvResults) : Nat → Nat → Prop where
  | done (i : Nat) : Completes results i 0
  | recv {i missing : Nat} {bytes : List UInt8} : results i = some bytes →
      Completes results (i + 1) (missing - bytes.length) → Completes results i missing

/-- A call fails before the missing bytes have come. -/
inductive FailsBefore (results : RecvResults) : Nat → Nat → Prop where
  | fails {i missing : Nat} : results i = none → 0 < missing → FailsBefore results i missing
  | recv {i missing : Nat} {bytes : List UInt8} : results i = some bytes →
      FailsBefore results (i + 1) (missing - bytes.length) → FailsBefore results i missing

theorem FailsBefore.pos {i missing : Nat} (h : results.FailsBefore i missing) : 0 < missing := by
  induction h with
  | fails _ hpos => exact hpos
  | recv _ _ ih => omega

end RecvResults

/-! ### The loop -/

section Loop

variable {results : RecvResults} {past : List (Event RecvOp RecvAns)} {fuel i : Nat}
  {buffer b : Buffer} {recvCount packetSize : Nat} {events : List (Event RecvOp RecvAns)}
  {ok : Bool}

theorem run_recvLoop_end (past : List (Event RecvOp RecvAns)) (fuel : Nat) (buffer : Buffer)
    (h : ¬ recvCount < packetSize) :
    results.run past (recvLoop (fuel + 1) buffer recvCount packetSize) =
      ([], .ok (true, buffer)) := by
  rw [recvLoop, if_neg h]
  rfl

theorem run_recvLoop_none (fuel : Nat) (buffer : Buffer) (h : recvCount < packetSize)
    (hnone : results past.length = none) :
    results.run past (recvLoop (fuel + 1) buffer recvCount packetSize) =
      ([⟨⟨packetSize - recvCount⟩, none⟩], .ok (false, buffer)) := by
  rw [recvLoop, if_pos h]
  simp [RecvResults.run, runIn, RecvResults.answers, hnone]

theorem run_recvLoop_some {bytes : List UInt8} (past : List (Event RecvOp RecvAns)) (fuel : Nat)
    (buffer : Buffer) (h : recvCount < packetSize) (hsome : results past.length = some bytes) :
    let stored := bytes.take (packetSize - recvCount)
    let event : Event RecvOp RecvAns := ⟨⟨packetSize - recvCount⟩, some stored⟩
    results.run past (recvLoop (fuel + 1) buffer recvCount packetSize) =
      (event :: (results.run (past ++ [event]) (recvLoop fuel (buffer.write recvCount stored)
          (recvCount + stored.length) packetSize)).1,
        (results.run (past ++ [event]) (recvLoop fuel (buffer.write recvCount stored)
          (recvCount + stored.length) packetSize)).2) := by
  intro stored event
  have hans : results.answers past ⟨packetSize - recvCount⟩ = some stored := by
    simp [RecvResults.answers, hsome, stored]
  rw [recvLoop, if_pos h]
  simp [RecvResults.run, runIn, remember, hans, event]

/-- One call of the loop, by the bytes that are missing. -/
theorem run_recvLoop_missing {missing : Nat} {bytes : List UInt8}
    (past : List (Event RecvOp RecvAns)) (fuel : Nat) (buffer : Buffer) (recvCount : Nat)
    (hmissing : 0 < missing) (hsome : results past.length = some bytes) :
    let stored := bytes.take missing
    let event : Event RecvOp RecvAns := ⟨⟨missing⟩, some stored⟩
    let later := results.run (past ++ [event]) (recvLoop fuel (buffer.write recvCount stored)
      (recvCount + stored.length) (recvCount + stored.length + (missing - bytes.length)))
    results.run past (recvLoop (fuel + 1) buffer recvCount (recvCount + missing)) =
      (event :: later.1, later.2) := by
  intro stored event later
  have hstored : stored.length = min missing bytes.length := List.length_take ..
  have hsize : recvCount + stored.length + (missing - bytes.length) = recvCount + missing := by
    omega
  have hstep := run_recvLoop_some past fuel buffer
    (Nat.lt_add_of_pos_right hmissing : recvCount < recvCount + missing) hsome
  rw [Nat.add_sub_cancel_left] at hstep
  simp only [later, hsize]
  exact hstep

/-- The missing bytes are stored one after the other. -/
theorem run_recvLoop_completes {missing : Nat} (h : results.Completes i missing)
    (past : List (Event RecvOp RecvAns)) (hpast : past.length = i) (buffer : Buffer)
    (recvCount : Nat) :
    ∃ fuel events, results.run past (recvLoop fuel buffer recvCount (recvCount + missing)) =
        (events, .ok (true, buffer.write recvCount (received events))) ∧
      (received events).length = missing := by
  induction h generalizing past buffer recvCount with
  | done i =>
      refine ⟨1, [], ?_, rfl⟩
      rw [run_recvLoop_end past 0 buffer (by omega), received_nil, Buffer.write_nil]
  | @recv i missing bytes hsome _ ih =>
      rcases Nat.eq_zero_or_pos missing with rfl | hmissing
      · refine ⟨1, [], ?_, rfl⟩
        rw [run_recvLoop_end past 0 buffer (by omega), received_nil, Buffer.write_nil]
      · obtain ⟨fuel, events, hrun, hlen⟩ := ih
          (past ++ [⟨⟨missing⟩, some (bytes.take missing)⟩]) (by simp [hpast])
          (buffer.write recvCount (bytes.take missing))
          (recvCount + (bytes.take missing).length)
        have hstep := run_recvLoop_missing past fuel buffer recvCount hmissing (hpast ▸ hsome)
        refine ⟨fuel + 1, ⟨⟨missing⟩, some (bytes.take missing)⟩ :: events, ?_, ?_⟩
        · rw [hstep, hrun, received_cons_some, Buffer.write_append]
        · rw [received_cons_some, List.length_append, List.length_take]
          omega

/-- The failure is noticed. -/
theorem run_recvLoop_fails {missing : Nat} (h : results.FailsBefore i missing)
    (past : List (Event RecvOp RecvAns)) (hpast : past.length = i) (buffer : Buffer)
    (recvCount : Nat) :
    ∃ fuel events b, results.run past (recvLoop fuel buffer recvCount (recvCount + missing)) =
      (events, .ok (false, b)) := by
  induction h generalizing past buffer recvCount with
  | fails hnone hpos =>
      exact ⟨1, _, _, run_recvLoop_none 0 buffer (by omega) (hpast ▸ hnone)⟩
  | @recv i missing bytes hsome later ih =>
      have hmissing : 0 < missing := Nat.lt_of_lt_of_le later.pos (Nat.sub_le ..)
      obtain ⟨fuel, events, b, hrun⟩ := ih
        (past ++ [⟨⟨missing⟩, some (bytes.take missing)⟩]) (by simp [hpast])
        (buffer.write recvCount (bytes.take missing))
        (recvCount + (bytes.take missing).length)
      have hstep := run_recvLoop_missing past fuel buffer recvCount hmissing (hpast ▸ hsome)
      exact ⟨fuel + 1, _, b, by rw [hstep, hrun]⟩

/-- What a run of the loop says about the results. -/
theorem run_recvLoop_returned
    (h : results.run past (recvLoop fuel buffer recvCount packetSize) = (events, .ok (ok, b))) :
    b = buffer.write recvCount (received events) ∧
      if ok then results.Completes past.length (packetSize - recvCount) ∧
        (received events).length = packetSize - recvCount
      else results.FailsBefore past.length (packetSize - recvCount) := by
  induction fuel generalizing past buffer recvCount events with
  | zero => cases h
  | succ fuel ih =>
      by_cases hlt : recvCount < packetSize
      · cases hans : results past.length with
        | none =>
            rw [run_recvLoop_none fuel buffer hlt hans] at h
            cases h
            exact ⟨(Buffer.write_nil ..).symm, .fails hans (Nat.sub_pos_of_lt hlt)⟩
        | some bytes =>
            rw [run_recvLoop_some past fuel buffer hlt hans] at h
            generalize hstored : bytes.take (packetSize - recvCount) = stored at h
            have hlen : stored.length = min (packetSize - recvCount) bytes.length := by
              rw [← hstored, List.length_take]
            obtain ⟨rfl, hend⟩ := Prod.mk.inj h
            have later := ih (Prod.ext rfl hend)
            have hmissing : packetSize - (recvCount + stored.length) =
                packetSize - recvCount - bytes.length := by omega
            rw [hmissing, List.length_append, List.length_singleton] at later
            obtain ⟨hb, hwhy⟩ := later
            refine ⟨by rw [hb, received_cons_some, Buffer.write_append], ?_⟩
            cases ok with
            | false => exact .recv hans hwhy
            | true =>
                rw [if_pos rfl] at hwhy ⊢
                obtain ⟨hcomplete, hrest⟩ := hwhy
                refine ⟨.recv hans hcomplete, ?_⟩
                rw [received_cons_some, List.length_append, hrest]
                omega
      · rw [run_recvLoop_end past fuel buffer hlt] at h
        cases h
        have hzero : packetSize - recvCount = 0 := by omega
        rw [hzero]
        exact ⟨(Buffer.write_nil ..).symm, .done _, rfl⟩

end Loop

/-! ### The function -/

/-- The bytes are the frame in the buffer: its header, and what its size says. -/
def WholeFrame (buffer : Buffer) (bytes : List UInt8) : Prop :=
  bytes.length = max sizeofPacketHeader buffer.totalSize ∧ buffer.read 0 bytes.length = bytes

/-- The call ends, and well only with a whole frame from this call. -/
def NoticesClose (results : RecvResults) (buffer : Buffer) : Prop :=
  ∃ fuel events ok b,
    results.run [] (recvFromServerProg fuel buffer) = (events, .ok (ok, b)) ∧
      (ok = true → WholeFrame b (received events))

/-- The first call fails, or a later one before what the header declares has come, or the
header comes in one piece and the rest of the response after it. -/
def ResponseEnds (results : RecvResults) (buffer : Buffer) : Prop :=
  match results 0 with
  | none => True
  | some bytes =>
      let missing := (buffer.write 0 (bytes.take 4)).totalSize - 4
      results.FailsBefore 1 missing ∨ (4 ≤ bytes.length ∧ results.Completes 1 missing)

section Function

variable {results : RecvResults} {buffer : Buffer} {bytes : List UInt8}

theorem run_recvFromServer_none (fuel : Nat) (buffer : Buffer) (hnone : results 0 = none) :
    results.run [] (recvFromServerProg fuel buffer) = ([⟨⟨4⟩, none⟩], .ok (false, buffer)) := by
  simp [recvFromServerProg, RecvResults.run, runIn, RecvResults.answers, hnone]

/-- After the header, the loop. With a size of 4 or less there is nothing to read. -/
theorem run_recvFromServer_some (fuel : Nat) (buffer : Buffer) (hsome : results 0 = some bytes) :
    let header := bytes.take 4
    let event : Event RecvOp RecvAns := ⟨⟨4⟩, some header⟩
    let stored := buffer.write 0 header
    let loop := recvLoop (fuel + 1) stored 4 (4 + (stored.totalSize - 4))
    results.run [] (recvFromServerProg (fuel + 1) buffer) =
      (event :: (results.run [event] loop).1, (results.run [event] loop).2) := by
  intro header event stored loop
  have hans : results.answers [] ⟨4⟩ = some header := by
    simp [RecvResults.answers, hsome, header]
  have hrest : (if stored.totalSize = 4 then .ret (true, stored)
      else recvLoop (fuel + 1) stored 4 stored.totalSize) = loop := by
    by_cases hlt : 4 < stored.totalSize
    · have hsize : 4 + (stored.totalSize - 4) = stored.totalSize := by omega
      simp only [loop]
      rw [if_neg (by omega), hsize]
    · have hloop : loop = .ret (true, stored) := by
        simp only [loop, recvLoop]
        rw [if_neg (by omega)]
      have hend : recvLoop (fuel + 1) stored 4 stored.totalSize = .ret (true, stored) := by
        rw [recvLoop, if_neg hlt]
      rw [hloop, hend, ite_self]
  rw [← hrest]
  simp [recvFromServerProg, RecvResults.run, runIn, remember, hans, event, stored]

/-- A run that needs no loop is the same with fuel for it. -/
theorem run_recvFromServer_fuel {fuel : Nat} {events : List (Event RecvOp RecvAns)}
    {r : Bool × Buffer} (hsome : results 0 = some bytes)
    (h : results.run [] (recvFromServerProg fuel buffer) = (events, .ok r)) :
    ∃ fuel', results.run [] (recvFromServerProg (fuel' + 1) buffer) = (events, .ok r) := by
  cases fuel with
  | succ fuel => exact ⟨fuel, h⟩
  | zero =>
      refine ⟨0, ?_⟩
      simp only [recvFromServerProg, RecvResults.run, runIn, RecvResults.answers, hsome,
        List.length_nil, Option.map_some] at h ⊢
      split at h
      · rename_i hfour
        rwa [if_pos hfour]
      · cases h

/-- The function ends as its results do. -/
theorem NoticesClose.responseEnds (h : NoticesClose results buffer) :
    ResponseEnds results buffer := by
  obtain ⟨fuel, events, ok, b, hcall, hwhole⟩ := h
  unfold ResponseEnds
  cases hfirst : results 0 with
  | none => trivial
  | some bytes =>
      dsimp only
      generalize hstored : buffer.write 0 (bytes.take 4) = stored
      have hheader : (bytes.take 4).length = min 4 bytes.length := List.length_take ..
      obtain ⟨fuel, hcall⟩ := run_recvFromServer_fuel hfirst hcall
      have hrun := run_recvFromServer_some fuel buffer hfirst
      simp only [hstored] at hrun
      rw [hrun] at hcall
      obtain ⟨rfl, hend⟩ := Prod.mk.inj hcall
      have hloop := run_recvLoop_returned (Prod.ext rfl hend)
      rw [Nat.add_sub_cancel_left] at hloop
      obtain ⟨hb, hwhy⟩ := hloop
      cases ok with
      | false => exact .inl hwhy
      | true =>
          rw [if_pos rfl] at hwhy
          obtain ⟨hcomplete, hlen⟩ := hwhy
          have hsize : b.totalSize = stored.totalSize :=
            Buffer.u16_congr fun i _ hi => by rw [hb, Buffer.write_of_lt _ _ _ (by omega)]
          obtain ⟨hcount, -⟩ := hwhole rfl
          rw [received_cons_some, List.length_append, hlen, hsize, sizeofPacketHeader] at hcount
          exact .inr ⟨by omega, hcomplete⟩

theorem noticesClose_of_fails (hfirst : results 0 = some bytes)
    (hfails : results.FailsBefore 1 ((buffer.write 0 (bytes.take 4)).totalSize - 4)) :
    NoticesClose results buffer := by
  obtain ⟨fuel, events, b, hloop⟩ := run_recvLoop_fails hfails [⟨⟨4⟩, some (bytes.take 4)⟩] rfl
    (buffer.write 0 (bytes.take 4)) 4
  cases fuel with
  | zero => cases hloop
  | succ fuel =>
      refine ⟨fuel + 1, _, false, b, by rw [run_recvFromServer_some fuel buffer hfirst, hloop], ?_⟩
      intro hok
      cases hok

/-- The header in one piece and what it declares are the frame. -/
theorem noticesClose_of_completes (hfirst : results 0 = some bytes) (hlen : 4 ≤ bytes.length)
    (hcomplete : results.Completes 1 ((buffer.write 0 (bytes.take 4)).totalSize - 4)) :
    NoticesClose results buffer := by
  generalize hstored : buffer.write 0 (bytes.take 4) = stored at hcomplete
  obtain ⟨fuel, events, hloop, hread⟩ := run_recvLoop_completes hcomplete
    [⟨⟨4⟩, some (bytes.take 4)⟩] rfl stored 4
  cases fuel with
  | zero => cases hloop
  | succ fuel =>
      have hrun := run_recvFromServer_some fuel buffer hfirst
      simp only [hstored, hloop] at hrun
      refine ⟨fuel + 1, _, true, _, hrun, fun _ => ?_⟩
      have hfour : (bytes.take 4).length = 4 := List.length_take_of_le hlen
      have hwrite := buffer.write_append 0 (bytes.take 4) (received events)
      rw [Nat.zero_add, hfour, hstored] at hwrite
      have hsize : (stored.write 4 (received events)).totalSize = stored.totalSize :=
        Buffer.u16_congr fun i _ hi => Buffer.write_of_lt _ _ _ (by omega)
      constructor
      · rw [received_cons_some, List.length_append, hread, hsize, sizeofPacketHeader]
        omega
      · rw [received_cons_some, hwrite, Buffer.read_write]

end Function

/-- For all results of `recv` and whatever is in the buffer: the call ends, and well only with a
whole frame, exactly when the results are as `ResponseEnds` asks. A `recv` of 0 bytes is no
failure to it, so that a connection that is closed in between is not noticed. -/
theorem notices_close_iff (results : RecvResults) (buffer : Buffer) :
    NoticesClose results buffer ↔ ResponseEnds results buffer := by
  constructor
  · exact NoticesClose.responseEnds
  · intro h
    unfold ResponseEnds at h
    cases hfirst : results 0 with
    | none =>
        refine ⟨0, _, false, buffer, run_recvFromServer_none 0 buffer hfirst, ?_⟩
        intro hok
        cases hok
    | some bytes =>
        rw [hfirst] at h
        rcases h with hfails | ⟨hlen, hcomplete⟩
        · exact noticesClose_of_fails hfirst hfails
        · exact noticesClose_of_completes hfirst hlen hcomplete

/-- The server closes at once: a call on a fresh buffer ends well without a byte. -/
theorem not_notices_close : ¬ NoticesClose (fun _ => some []) Buffer.zero := by
  intro h
  rcases h.responseEnds with hfails | ⟨hlen, -⟩
  · exact absurd hfails.pos (by decide)
  · exact absurd hlen (by decide)

end ConcurrentTcp
