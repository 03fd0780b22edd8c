import ConcurrentTcp.Server.Requests
import ConcurrentTcp.Server.ResponseGaps
import Mathlib.Logic.Function.Basic

/-!
Requests with the workers that serve them.

Every worker has a response buffer of its own, the `thread_local` array `tls_buffer`. It is zero
at first, and a request finds in it what the worker's earlier requests left, whose connections
they were. `workerSystem` has the steps of `requestSystem`, with the worker that makes each; which
worker serves a request is open.
-/

namespace ConcurrentTcp

open Interaction Transition

structure ServingState where
  requests : RequestState
  buffers : Nat → Buffer

def ServingState.initial : ServingState := ⟨.initial, fun _ => Buffer.zero⟩

/-- A step and its worker. To accept a connection and to end one touches no buffer. -/
structure ServingLabel where
  worker : Nat
  request : RequestLabel

namespace RequestLabel

/-- What the request finds in the response buffer. -/
def Finds (b : Buffer) : RequestLabel → Prop
  | packet _ _ _ _ tls _ _ => tls = b
  | _ => True

/-- What it leaves there. -/
def leaves (b : Buffer) : RequestLabel → Buffer
  | packet _ _ _ _ _ _ (.ok t) => t.tls
  | _ => b

end RequestLabel

structure ServingStep (users : DatabaseHandler) (w : ServingState) (l : ServingLabel)
    (v : ServingState) : Prop where
  request : RequestStep users w.requests l.request v.requests
  finds : l.request.Finds (w.buffers l.worker)
  leaves : v.buffers =
    Function.update w.buffers l.worker (l.request.leaves (w.buffers l.worker))

/-- Requests of workers with their buffers. A process that has ended takes no steps. -/
def workerSystem (users : DatabaseHandler) : System ServingState ServingLabel where
  init := fun w => w = .initial
  step := fun w l v => w.requests.terminated = false ∧ ServingStep users w l v

section Workers

variable {users : DatabaseHandler} {w v : ServingState} {l : ServingLabel}

/-- Whatever requests workers reach, the system of requests reaches. -/
theorem workerSystem_refines_requests (h : Reachable (workerSystem users) w) :
    Reachable (requestSystem users) w.requests := by
  refine Reachable.invariant
    (I := fun w => Reachable (requestSystem users) w.requests) ?_ ?_ h
  · rintro start rfl
    exact .initial rfl
  · rintro w l v now ⟨running, step⟩
    exact now.step ⟨running, step.request⟩

/-- A request that finds its worker's buffer is a step of the worker. -/
theorem RequestStep.ofWorker {request : RequestLabel} {requests : RequestState} (worker : Nat)
    (step : RequestStep users w.requests request requests)
    (finds : request.Finds (w.buffers worker)) :
    ServingStep users w ⟨worker, request⟩
      ⟨requests, Function.update w.buffers worker (request.leaves (w.buffers worker))⟩ :=
  ⟨step, finds, rfl⟩

theorem ServingStep.accept {c : ConnId} (worker : Nat) (socketFd : Int)
    (hfree : w.requests.live c = none) :
    ServingStep users w ⟨worker, .accept c socketFd⟩
      ⟨w.requests.next c (.ok (some (.accepted socketFd), w.requests.g)), w.buffers⟩ :=
  ⟨.accept hfree, trivial, (Function.update_eq_self worker w.buffers).symm⟩

/-- The version in the buffers of the workers. -/
def VersionsZero (w : ServingState) : Prop := ∀ worker, w.buffers worker 0 = 0

theorem VersionsZero.step (now : VersionsZero w) (step : ServingStep users w l v) :
    VersionsZero v := by
  intro worker
  rw [step.leaves]
  by_cases hworker : worker = l.worker
  swap
  · rw [Function.update_of_ne hworker]
    exact now worker
  rw [hworker, Function.update_self]
  obtain ⟨served, request⟩ := l
  cases request with
  | packet c ty receiveBuffer cb tls events out =>
      obtain ⟨fuel, session, -, run, -, -⟩ := step.request.packet_inv
      have htls : tls = w.buffers served := step.finds
      cases out with
      | error e => exact now served
      | ok t => exact VersionIsZero.of_dispatch (htls ▸ now served) run
  | accept c socketFd => exact now served
  | disconnect c events out => exact now served

end Workers

end ConcurrentTcp
