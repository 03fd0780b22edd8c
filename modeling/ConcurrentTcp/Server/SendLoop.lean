import ConcurrentTcp.Server.PacketsUtils

/-!
`send_response_sync` (`server/connection.cpp`).

The socket does not block, so that a response goes out in as many calls of `send` as it
takes. `sent_bytes` is an `int` and `length` a `size_t`: their difference and their
comparison are made in `size_t`. What the calls accept is the buffer from its start, each
byte once (`sendResponseSyncLoop_sends`); without an error it is all of it, as the one call
that stands for the loop in the handlers says (`sendResponseSync_of_loop`).
-/

namespace ConcurrentTcp

open Interaction

/-! ### The loop -/

/-- `send`, of `requested` bytes from `buffer + offset` -/
structure SendOp where
  offset : Int
  requested : Nat

/-- What `send` returned; `wouldBlock` is -1 with `EWOULDBLOCK` or `EAGAIN`. -/
inductive SendAns where
  | accepted (count : Nat)
  | wouldBlock
  | error
deriving DecidableEq, Repr

/-- `outOfFuel` stands for a run that is not at its end. -/
inductive SendFault where
  | signedOverflow
  | outOfFuel
deriving DecidableEq, Repr

abbrev SendProg (α : Type) : Type := Prog SendOp (fun _ => SendAns) SendFault α

abbrev SendEvent : Type := Event SendOp fun _ => SendAns

/-- The conversion of an `int`. -/
def toSizeT (n : Int) : Nat := (n % 2 ^ 64).toNat

/-- `length - sent_bytes` -/
def missingBytes (length : Nat) (sentBytes : Int) : Nat :=
  (length + (2 ^ 64 - toSizeT sentBytes)) % 2 ^ 64

/-- `sent_bytes += result`, and the test that ends the loop. -/
def addResult (sentBytes : Int) (count length : Nat) (again : Int → SendProg Unit) :
    SendProg Unit :=
  let sentBytes := sentBytes + count
  if sentBytes ≥ 2 ^ 31 then .fail .signedOverflow
  else if toSizeT sentBytes ≥ length then .ret ()
  else again sentBytes

/-- The `while(true)` of `send_response_sync` -/
def sendResponseSyncLoop : Nat → Int → Nat → SendProg Unit
  | 0, _, _ => .fail .outOfFuel
  | fuel + 1, sentBytes, length =>
      .call ⟨sentBytes, missingBytes length sentBytes⟩ fun
        | .wouldBlock => sendResponseSyncLoop fuel sentBytes length
        | .error => .ret ()
        | .accepted count =>
            addResult sentBytes count length fun sentBytes =>
              sendResponseSyncLoop fuel sentBytes length

/-- `send` does not take more than it was given. -/
def AcceptsRequested (e : SendEvent) : Prop :=
  ∀ count, e.ans = .accepted count → count ≤ e.op.requested

/-- The positions of the buffer that one call took. -/
def SendEvent.positions (e : SendEvent) : List Nat :=
  match e.ans with
  | .accepted count => List.range' e.op.offset.toNat count
  | .wouldBlock => []
  | .error => []

/-- The positions that were taken, in order. -/
def acceptedPositions (sends : List SendEvent) : List Nat := sends.flatMap (·.positions)

/-- The bytes that were taken. -/
def transmitted (buffer : Buffer) (sends : List SendEvent) : List UInt8 :=
  (acceptedPositions sends).map buffer

theorem acceptedPositions_cons (e : SendEvent) (sends : List SendEvent) :
    acceptedPositions (e :: sends) = e.positions ++ acceptedPositions sends := rfl

/-! ### Its runs -/

theorem toSizeT_natCast {n : Nat} (h : n < 2 ^ 64) : toSizeT n = n := by
  unfold toSizeT
  omega

theorem missingBytes_natCast {length sent : Nat} (hlength : length < 2 ^ 64)
    (hsent : sent ≤ length) : missingBytes length sent = length - sent := by
  unfold missingBytes
  rw [toSizeT_natCast (by omega)]
  omega

theorem addResult_natCast {length sent count : Nat} (hlength : length ≤ 65535)
    (hcount : sent + count ≤ length) (again : Int → SendProg Unit) :
    addResult sent count length again =
      if sent + count = length then .ret () else again (sent + count : Nat) := by
  have hsum : (sent : Int) + count = (sent + count : Nat) := by simp
  have hfits : ¬ ((sent + count : Nat) : Int) ≥ 2 ^ 31 := by omega
  simp only [addResult, hsum, if_neg hfits]
  rw [toSizeT_natCast (by omega)]
  by_cases hall : sent + count = length
  · rw [if_pos hall, if_pos (by omega)]
  · rw [if_neg hall, if_neg (by omega)]

/-- The loop without its machine integers: `sent` bytes have gone out, and each call asks
for all that is left. -/
inductive Sends (length : Nat) : Nat → List SendEvent → Except SendFault Unit → Prop where
  | cut (sent : Nat) : Sends length sent [] (.error .outOfFuel)
  | retry {sent : Nat} {sends : List SendEvent} {out : Except SendFault Unit} :
      Sends length sent sends out →
      Sends length sent (⟨⟨sent, length - sent⟩, .wouldBlock⟩ :: sends) out
  | error (sent : Nat) : Sends length sent [⟨⟨sent, length - sent⟩, .error⟩] (.ok ())
  | last {sent count : Nat} : sent + count = length →
      Sends length sent [⟨⟨sent, length - sent⟩, .accepted count⟩] (.ok ())
  | more {sent count : Nat} {sends : List SendEvent} {out : Except SendFault Unit} :
      sent + count < length → Sends length (sent + count) sends out →
      Sends length sent (⟨⟨sent, length - sent⟩, .accepted count⟩ :: sends) out

/-- For lengths of a packet the conversions change nothing. -/
theorem sends_of_exec {fuel sent length : Nat} {sends : List SendEvent}
    {out : Except SendFault Unit} (hlength : length ≤ 65535) (hsent : sent ≤ length)
    (run : Exec (sendResponseSyncLoop fuel sent length) sends out)
    (accepts : ∀ e ∈ sends, AcceptsRequested e) : Sends length sent sends out := by
  induction fuel generalizing sent sends with
  | zero =>
      obtain ⟨rfl, rfl⟩ := Exec.fail_iff.mp run
      exact .cut sent
  | succ fuel ih =>
      rw [sendResponseSyncLoop, Exec.call_iff, missingBytes_natCast (by omega) hsent] at run
      obtain ⟨ans, rest, rfl, later⟩ := run
      obtain ⟨now, still⟩ := List.forall_mem_cons.mp accepts
      cases ans with
      | wouldBlock => exact .retry (ih hsent later still)
      | error =>
          obtain ⟨rfl, rfl⟩ := Exec.ret_iff.mp later
          exact .error sent
      | accepted count =>
          have hcount : count ≤ length - sent := now count rfl
          dsimp only at later
          rw [addResult_natCast hlength (by omega)] at later
          by_cases hall : sent + count = length
          · rw [if_pos hall] at later
            obtain ⟨rfl, rfl⟩ := Exec.ret_iff.mp later
            exact .last hall
          · rw [if_neg hall] at later
            exact .more (by omega) (ih (by omega) later still)

/-- And every such run is one of the loop. -/
theorem exec_of_sends {sent length : Nat} {sends : List SendEvent} {out : Except SendFault Unit}
    (hlength : length ≤ 65535) (hsent : sent ≤ length) (h : Sends length sent sends out) :
    Exec (sendResponseSyncLoop sends.length sent length) sends out := by
  induction h with
  | cut sent => exact Exec.fail_iff.mpr ⟨rfl, rfl⟩
  | @retry sent sends out _ ih =>
      rw [List.length_cons, sendResponseSyncLoop, missingBytes_natCast (by omega) hsent]
      exact Exec.call_iff.mpr ⟨.wouldBlock, _, rfl, ih hsent⟩
  | error sent =>
      rw [List.length_singleton, sendResponseSyncLoop, missingBytes_natCast (by omega) hsent]
      exact Exec.call_iff.mpr ⟨.error, _, rfl, .ret ()⟩
  | @last sent count hall =>
      rw [List.length_singleton, sendResponseSyncLoop, missingBytes_natCast (by omega) hsent]
      refine Exec.call_iff.mpr ⟨.accepted count, _, rfl, ?_⟩
      dsimp only
      rw [addResult_natCast hlength (by omega), if_pos hall]
      exact .ret ()
  | @more sent count sends out hmore _ ih =>
      rw [List.length_cons, sendResponseSyncLoop, missingBytes_natCast (by omega) hsent]
      refine Exec.call_iff.mpr ⟨.accepted count, _, rfl, ?_⟩
      dsimp only
      rw [addResult_natCast hlength (by omega), if_neg (by omega)]
      exact ih (by omega)

namespace Sends

variable {length sent : Nat} {sends : List SendEvent} {out : Except SendFault Unit}

/-- The bytes go out from where the loop stands on, none skipped and none twice. -/
theorem positions (h : Sends length sent sends out) (hsent : sent ≤ length) :
    ∃ n, sent + n ≤ length ∧ acceptedPositions sends = List.range' sent n := by
  induction h with
  | cut sent => exact ⟨0, by omega, rfl⟩
  | retry _ ih => exact ih hsent
  | error sent => exact ⟨0, by omega, rfl⟩
  | @last sent count hall =>
      refine ⟨count, by omega, ?_⟩
      simp [acceptedPositions, SendEvent.positions]
  | @more sent count sends out hmore _ ih =>
      obtain ⟨n, hn, later⟩ := ih (by omega)
      refine ⟨count + n, by omega, ?_⟩
      rw [acceptedPositions_cons, later, ← List.range'_append_1]
      rfl

/-- Without an error the loop ends when the last byte has gone out. -/
theorem positions_of_ok (h : Sends length sent sends (.ok ())) (hsent : sent ≤ length)
    (noError : ∀ e ∈ sends, e.ans ≠ .error) :
    acceptedPositions sends = List.range' sent (length - sent) := by
  generalize hout : Except.ok () = out at h
  induction h with
  | cut sent => cases hout
  | retry _ ih =>
      exact ih hsent (fun e he => noError e (List.mem_cons_of_mem _ he)) hout
  | error sent => exact absurd rfl (noError _ List.mem_cons_self)
  | @last sent count hall =>
      have hcount : count = length - sent := by omega
      simp [acceptedPositions, SendEvent.positions, hcount]
  | @more sent count sends out hmore _ ih =>
      have later := ih (by omega) (fun e he => noError e (List.mem_cons_of_mem _ he)) hout
      have hrest : length - sent = count + (length - (sent + count)) := by omega
      rw [acceptedPositions_cons, later, hrest, ← List.range'_append_1]
      rfl

/-- Each call asks for what is left from where it starts. -/
theorem requested (h : Sends length sent sends out) (hsent : sent ≤ length) :
    ∀ e ∈ sends, 0 ≤ e.op.offset ∧ e.op.offset + e.op.requested = length := by
  have here : ∀ sent ≤ length, (0 : Int) ≤ (sent : Int) ∧
      (sent : Int) + (length - sent : Nat) = length := by
    intro sent hsent
    omega
  induction h with
  | cut sent => simp
  | retry _ ih => exact List.forall_mem_cons.mpr ⟨here _ hsent, ih hsent⟩
  | error sent => exact List.forall_mem_singleton.mpr (here sent hsent)
  | last hall => exact List.forall_mem_singleton.mpr (here _ hsent)
  | more hmore _ ih => exact List.forall_mem_cons.mpr ⟨here _ hsent, ih (by omega)⟩

theorem ne_signedOverflow (h : Sends length sent sends out) : out ≠ .error .signedOverflow := by
  induction h with
  | cut sent => rintro ⟨⟩
  | retry _ ih => exact ih
  | error sent => rintro ⟨⟩
  | last hall => rintro ⟨⟩
  | more hmore _ ih => exact ih

end Sends

/-! ### What goes out -/

/-- What the socket took is the buffer from its start, each byte once. -/
structure SendsInOrder (buffer : Buffer) (length : Nat) (sends : List SendEvent)
    (out : Except SendFault Unit) : Prop where
  once : ∃ n ≤ length, acceptedPositions sends = List.range n
  front : transmitted buffer sends <+: buffer.read 0 length
  requested : ∀ e ∈ sends, 0 ≤ e.op.offset ∧ e.op.offset + e.op.requested = length
  noOverflow : out ≠ .error .signedOverflow
  whole : out = .ok () → (∀ e ∈ sends, e.ans ≠ .error) →
    transmitted buffer sends = buffer.read 0 length

theorem map_range_buffer (buffer : Buffer) (n : Nat) :
    (List.range n).map buffer = buffer.read 0 n := by
  simp [Buffer.read]

/-- Every run of `send_response_sync`, to its end or not, sends in order, if `send` takes no more
than it is asked to take. No response is longer than 65535 bytes, so that the `int` counts it. -/
theorem sendResponseSyncLoop_sends {fuel length : Nat} (hlength : length ≤ 65535)
    (buffer : Buffer) {sends : List SendEvent} {out : Except SendFault Unit}
    (run : Exec (sendResponseSyncLoop fuel 0 length) sends out)
    (accepts : ∀ e ∈ sends, AcceptsRequested e) : SendsInOrder buffer length sends out := by
  have loop : Sends length 0 sends out := sends_of_exec hlength (Nat.zero_le _) run accepts
  obtain ⟨n, hn, hpositions⟩ := loop.positions (Nat.zero_le _)
  rw [Nat.zero_add] at hn
  rw [← List.range_eq_range'] at hpositions
  refine ⟨⟨n, hn, hpositions⟩, ?_, loop.requested (Nat.zero_le _), loop.ne_signedOverflow, ?_⟩
  · have hsplit := Buffer.read_add buffer 0 n (length - n)
    rw [Nat.add_sub_cancel' hn] at hsplit
    rw [transmitted, hpositions, map_range_buffer, hsplit]
    exact List.prefix_append _ _
  · rintro rfl noError
    have hall := loop.positions_of_ok (Nat.zero_le _) noError
    rw [transmitted, hall, Nat.sub_zero, ← List.range_eq_range', map_range_buffer]

/-- Three bytes on a socket that takes two, then nothing, then one. -/
theorem sendResponseSyncLoop_sends_three :
    ∃ sends, Exec (sendResponseSyncLoop 3 0 3) sends (.ok ()) ∧
      sends.map SendEvent.positions = [[0, 1], [], [2]] ∧
      SendsInOrder Buffer.zero 3 sends (.ok ()) := by
  have loop : Sends 3 0 [⟨⟨0, 3⟩, .accepted 2⟩, ⟨⟨2, 1⟩, .wouldBlock⟩, ⟨⟨2, 1⟩, .accepted 1⟩]
      (.ok ()) := .more (by decide) (.retry (.last (by decide)))
  have run := exec_of_sends (by decide) (by decide) loop
  have accepts : ∀ e ∈ [(⟨⟨0, 3⟩, .accepted 2⟩ : SendEvent), ⟨⟨2, 1⟩, .wouldBlock⟩,
      ⟨⟨2, 1⟩, .accepted 1⟩], AcceptsRequested e := by
    simp [AcceptsRequested]
  exact ⟨_, run, rfl, sendResponseSyncLoop_sends (by decide) _ run accepts⟩

/-! ### The loop and the one call -/

/-- A run of the loop that meets no error is the one call by which the handlers send. -/
theorem sendResponseSync_of_loop {fuel length : Nat} (hlength : length ≤ 65535)
    (buffer : Buffer) {sends : List SendEvent}
    (run : Exec (sendResponseSyncLoop fuel 0 length) sends (.ok ()))
    (accepts : ∀ e ∈ sends, AcceptsRequested e) (noError : ∀ e ∈ sends, e.ans ≠ .error) :
    Exec (sendResponseSync buffer length) [⟨.send (transmitted buffer sends), ()⟩]
      (.ok ()) := by
  have loop : Sends length 0 sends (.ok ()) :=
    sends_of_exec hlength (Nat.zero_le _) run accepts
  have hall := loop.positions_of_ok (Nat.zero_le _) noError
  rw [transmitted, hall, Nat.sub_zero, ← List.range_eq_range', map_range_buffer]
  exact Exec.call_iff.mpr ⟨(), [], rfl, .ret ()⟩

/-- A call that found no room. -/
def SendEvent.blocked (e : SendEvent) : Bool := decide (e.ans = .wouldBlock)

theorem length_of_cut {fuel length : Nat} {sent : Int} {sends : List SendEvent}
    (run : Exec (sendResponseSyncLoop fuel sent length) sends (.error .outOfFuel)) :
    sends.length = fuel := by
  induction fuel generalizing sent sends with
  | zero =>
      obtain ⟨rfl, -⟩ := Exec.fail_iff.mp run
      rfl
  | succ fuel ih =>
      rw [sendResponseSyncLoop, Exec.call_iff] at run
      obtain ⟨ans, rest, rfl, later⟩ := run
      rw [List.length_cons]
      cases ans with
      | wouldBlock => rw [ih later]
      | error => cases later
      | accepted count =>
          dsimp only [addResult] at later
          split at later
          · cases later
          · split at later
            · cases later
            · rw [ih later]

/-- A run that is not at its end has mostly been blocked, if the socket takes something
whenever it does not block. -/
theorem Sends.length_of_cut {length sent : Nat} {sends : List SendEvent}
    (h : Sends length sent sends (.error .outOfFuel))
    (progress : ∀ e ∈ sends, e.ans ≠ .accepted 0) :
    sends.length ≤ sends.countP SendEvent.blocked + (length - sent) := by
  generalize hout : Except.error SendFault.outOfFuel = out at h
  induction h with
  | cut sent => simp
  | @retry sent sends out _ ih =>
      have later := ih (fun e he => progress e (List.mem_cons_of_mem _ he)) hout
      rw [List.length_cons, List.countP_cons_of_pos rfl]
      omega
  | error sent => cases hout
  | last hall => cases hout
  | @more sent count sends out hmore _ ih =>
      have later := ih (fun e he => progress e (List.mem_cons_of_mem _ he)) hout
      have hcount : count ≠ 0 := by
        rintro rfl
        exact progress _ List.mem_cons_self rfl
      rw [List.length_cons, List.countP_cons_of_neg (by simp [SendEvent.blocked])]
      omega

/-- The call returns: `length` calls that are not blocked are enough. -/
theorem sendResponseSyncLoop_returns {fuel length : Nat} (hlength : length ≤ 65535)
    {sends : List SendEvent} {out : Except SendFault Unit}
    (run : Exec (sendResponseSyncLoop fuel 0 length) sends out)
    (accepts : ∀ e ∈ sends, AcceptsRequested e) (progress : ∀ e ∈ sends, e.ans ≠ .accepted 0)
    (enough : sends.countP SendEvent.blocked + length < fuel) : out = .ok () := by
  have loop : Sends length 0 sends out := sends_of_exec hlength (Nat.zero_le _) run accepts
  match out, run, loop with
  | .ok (), _, _ => rfl
  | .error .signedOverflow, _, loop => exact absurd rfl loop.ne_signedOverflow
  | .error .outOfFuel, run, loop =>
      have hcut := loop.length_of_cut progress
      rw [ConcurrentTcp.length_of_cut run] at hcut
      omega

end ConcurrentTcp
