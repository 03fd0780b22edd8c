import ConcurrentTcp.Base.Descriptors
import ConcurrentTcp.Server.DescriptorCalls
import ConcurrentTcp.Server.LoginHistory

/-!
The descriptors of the server.

Client sockets and the files of all connections share one descriptor table.
`descriptorSystem` has the steps of `requestSystem` with what they do to the table; at a
disconnect the socket is closed before the connection is destroyed. A connection keeps
the numbers in `fd` and `download_fd` when their files are closed or were never opened.
`descriptors_owned` says under which requests they are used only while they stand for
files of the connection.
-/

namespace ConcurrentTcp

open Interaction Transition

open Descriptors (Table TableOp LowestFree Step Lasts)

/-! ### The table -/

/-- What a descriptor of the server stands for: one that the process inherited, the
socket of a connection, a file that a handler of a connection opened under a login id,
or anything else. -/
inductive Holding where
  | standard
  | socket (c : ConnId)
  | file (c : ConnId) (user : Str)
  | other
deriving DecidableEq, Repr

abbrev DescriptorTable : Type := Table Holding

/-- Standard input, output and error are open. -/
def DescriptorTable.initial : DescriptorTable :=
  fun fd => if 0 ≤ fd ∧ fd < 3 then some .standard else none

/-- The answer of a call that fails. -/
def refused (result : Int) : Bool := decide (result = -1)

/-- A call as an operation on the table. -/
def tableOp (c : ConnId) (user : Str) : ServerEvent → TableOp Holding
  | ⟨.openFile _ _, fd⟩ => .opens (.file c user) fd
  | ⟨.close fd, result⟩ => .close fd result
  | ⟨.fstat fd, size⟩ => .use fd (Option.isNone (size : Option Nat))
  | ⟨.lseek fd _, position⟩ => .use fd (refused position)
  | ⟨.read fd _, bytes⟩ => .use fd (Option.isNone (bytes : Option (List UInt8)))
  | ⟨.write fd _ _, written⟩ => .use fd (refused written)
  | _ => .idle

/-- The rest of the server opens and closes what it uses itself: directories, archives
and the listening socket. -/
def OtherChanges (T T' : DescriptorTable) : Prop :=
  ∀ fd, T' fd = T fd ∨ (0 ≤ fd ∧ T fd = none ∧ T' fd = some .other) ∨
    (T fd = some .other ∧ T' fd = none)

/-- The calls that a handler of connection `c` makes, each with the table it finds. -/
abbrev TableRun (c : ConnId) (user : Str) (T : DescriptorTable)
    (calls : List (DescriptorTable × ServerEvent)) (T' : DescriptorTable) : Prop :=
  Descriptors.Run (tableOp c user) OtherChanges T calls T'

/-- The files that a destroyed connection leaves open are nobody's. -/
def disown (c : ConnId) (T : DescriptorTable) : DescriptorTable := fun fd =>
  match T fd with
  | some (.file d user) => if d = c then some .other else some (.file d user)
  | entry => entry

/-! ### Transfers -/

/-- The transfers that a connection has open, with the login id that opened each. -/
structure Transfers where
  upload : Option Str
  download : Option Str
deriving DecidableEq, Repr

def Transfers.idle : Transfers := { upload := none, download := none }

/-- The user of an upload whose file was opened. -/
def uploadedBy (user : Str) (file : Int) : Option Str := if 0 ≤ file then some user else none

/-- An upload opens with its file, whether or not the last one has ended. A download opens
with the size of its file and ends with any close. -/
def Transfers.call (user : Str) (x : Transfers) : ServerEvent → Transfers
  | ⟨.openFile _ true, fd⟩ => { x with upload := uploadedBy user fd }
  | ⟨.fstat _, size⟩ =>
      if Option.isSome (size : Option Nat) then { x with download := some user } else x
  | ⟨.close _, _⟩ => { x with download := none }
  | _ => x

/-! ### The system -/

structure DescriptorState extends RequestState where
  table : DescriptorTable
  transfers : ConnId → Transfers

def DescriptorState.initial : DescriptorState :=
  { RequestState.initial with table := .initial, transfers := fun _ => .idle }

/-- A request with the tables that its calls found. -/
structure DescriptorLabel where
  request : RequestLabel
  calls : List (DescriptorTable × ServerEvent)

inductive DescriptorStep (users : DatabaseHandler) :
    DescriptorState → DescriptorLabel → DescriptorState → Prop where
  | accept {w : DescriptorState} {c : ConnId} {socketFd : Int} {v : RequestState}
      {T : DescriptorTable} : RequestStep users w.toRequestState (.accept c socketFd) v →
      OtherChanges w.table T → LowestFree T socketFd →
      DescriptorStep users w ⟨.accept c socketFd, []⟩
        ⟨v, Function.update T socketFd (some (.socket c)),
          Function.update w.transfers c .idle⟩
  | packet {w : DescriptorState} {c : ConnId} {ty : PacketType} {receiveBuffer tls : Buffer}
      {cb : ConnectionBuffer} {out : Except Fault HandlerState} {v : RequestState}
      {session : Session} {T : DescriptorTable} {calls : List (DescriptorTable × ServerEvent)} :
      w.live c = some session →
      RequestStep users w.toRequestState
        (.packet c ty receiveBuffer cb tls (calls.map Prod.snd) out) v →
      TableRun c session.id w.table calls T →
      DescriptorStep users w ⟨.packet c ty receiveBuffer cb tls (calls.map Prod.snd) out, calls⟩
        ⟨v, T, Function.update w.transfers c
          ((calls.map Prod.snd).foldl (Transfers.call session.id) (w.transfers c))⟩
  | disconnect {w : DescriptorState} {c : ConnId} {out : Except Fault GlobalState}
      {v : RequestState} {session : Session} {T U : DescriptorTable}
      {calls : List (DescriptorTable × ServerEvent)} : w.live c = some session →
      RequestStep users w.toRequestState (.disconnect c (calls.map Prod.snd) out) v →
      OtherChanges w.table T →
      TableRun c session.id (Function.update T session.socketFd none) calls U →
      DescriptorStep users w ⟨.disconnect c (calls.map Prod.snd) out, calls⟩
        ⟨v, disown c U, w.transfers⟩

/-- Requests and their descriptors over a fixed user database. -/
def descriptorSystem (users : DatabaseHandler) : System DescriptorState DescriptorLabel where
  init := fun w => w = .initial
  step := fun w l v => w.terminated = false ∧ DescriptorStep users w l v

/-- Its requests are those of `requestSystem`. -/
theorem descriptorSystem_refines_requests {users : DatabaseHandler} {w : DescriptorState}
    (h : Reachable (descriptorSystem users) w) :
    Reachable (requestSystem users) w.toRequestState := by
  refine Reachable.invariant
    (I := fun w => Reachable (requestSystem users) w.toRequestState) ?_ ?_ h
  · rintro start rfl
    exact .initial rfl
  · rintro w l v now ⟨running, step⟩
    cases step with
    | accept request => exact now.step ⟨running, request⟩
    | packet hlive request => exact now.step ⟨running, request⟩
    | disconnect hlive request => exact now.step ⟨running, request⟩

/-! ### Ownership -/

/-- A call on a descriptor that it does not open. -/
def SysCall.usesFile : SysCall → Bool
  | .read _ _ | .write _ _ _ | .lseek _ _ | .close _ => true
  | _ => false

theorem SysCall.usesFile_of_not_onDescriptor {op : SysCall} (h : op.onDescriptor = false) :
    op.usesFile = false := by
  cases op <;> first | rfl | cases h

/-- A call of connection `c` under the login id `user` that works on a descriptor, and the
table it finds: it is never made on descriptor 0, nor on anything but a file that the
connection opened and that is still open, and the contents of files are used under the
login id that opened them. -/
def UsesOwn (c : ConnId) (user : Str) (T : DescriptorTable) : ServerEvent → Prop
  | ⟨.read fd _, _⟩ | ⟨.write fd _ _, _⟩ | ⟨.lseek fd _, _⟩ =>
      fd ≠ 0 ∧ T fd = some (.file c user)
  | ⟨.close fd, _⟩ => fd ≠ 0 ∧ ∃ owner, T fd = some (.file c owner)
  | _ => True

/-- A request uses only descriptors of its connection. -/
def OwnsDescriptors (m : Move DescriptorState DescriptorLabel) : Prop :=
  ∀ session, m.pre.live m.label.request.connection = some session →
    ∀ call ∈ m.label.calls, UsesOwn m.label.request.connection session.id call.1 call.2

/-- What a served packet finds open. -/
def FindsOpen (x : Transfers) (user : Str) (events : List ServerEvent) : PacketType → Prop
  | .reqFileTransferChunk | .reqFileTransferEnd => x.upload = some user
  | .reqFileDownloadChunk => x.download = some user
  | .reqFileClose =>
      x.download ≠ none ∧ ∀ fd (result : Int), ⟨.close fd, result⟩ ∈ events → 0 ≤ result
  | _ => True

/-- Data and closes come while their transfer is open, and a connection that ends has both
an upload and a download open. -/
def InTransfer (w : DescriptorState) (l : DescriptorLabel) : Prop :=
  match l.request with
  | .accept _ _ => True
  | .packet c ty _ _ _ events _ => ∀ session, w.live c = some session → session.id ≠ [] →
      FindsOpen (w.transfers c) session.id events ty
  | .disconnect c _ _ => (w.transfers c).upload ≠ none ∧ (w.transfers c).download ≠ none

/-! ### What a connection holds -/

/-- The socket and the open transfers of a connection in the table. -/
structure Holds (T : DescriptorTable) (c : ConnId) (session : Session) (x : Transfers) :
    Prop where
  socket : T session.socketFd = some (.socket c)
  upload : ∀ user, x.upload = some user → T session.fd = some (.file c user)
  download : ∀ user, x.download = some user → T session.downloadFd = some (.file c user)
  apart : x.upload ≠ none → x.download ≠ none → session.fd ≠ session.downloadFd

/-- Every connection holds its socket and its transfers. -/
structure TableSound (w : DescriptorState) : Prop where
  standard : w.table 0 = some .standard
  holds : ∀ c session, w.live c = some session → Holds w.table c session (w.transfers c)

section Table

variable {c : ConnId} {user : Str} {T T' : DescriptorTable} {fd : Int} {h : Holding}
  {calls : List (DescriptorTable × ServerEvent)} {e : ServerEvent}

theorem lasts_of_ne_other (hother : h ≠ .other) : Lasts OtherChanges h := by
  intro T T' fd changes held
  rcases changes fd with same | ⟨-, free, -⟩ | ⟨other, -⟩
  · rw [same, held]
  · rw [held] at free
    cases free
  · rw [held] at other
    cases other
    exact absurd rfl hother

theorem tableOp_of_not_onDescriptor (he : e.op.onDescriptor = false) :
    tableOp c user e = .idle := by
  obtain ⟨op, ans⟩ := e
  cases op <;> first | rfl | cases he

theorem op_of_tableOp {result : Int} (he : tableOp c user e = .close fd result) :
    e.op = .close fd := by
  obtain ⟨op, ans⟩ := e
  cases op <;> cases he
  rfl

/-- What a run does not close is still held. -/
theorem TableRun.keeps (run : TableRun c user T calls T') (hother : h ≠ .other)
    (held : T fd = some h)
    (unclosed : ∀ e ∈ calls.map Prod.snd, e.op ≠ .close fd) : T' fd = some h := by
  apply Descriptors.Run.keeps run (lasts_of_ne_other hother) held
  intro call hcall _ result hop
  exact unclosed call.2 (List.mem_map_of_mem hcall) (op_of_tableOp hop)

/-- A run that uses only its own files closes nothing of others. -/
theorem TableRun.keeps_others (run : TableRun c user T calls T') (hother : h ≠ .other)
    (hfile : ∀ owner, h ≠ .file c owner) (held : T fd = some h)
    (own : ∀ call ∈ calls, UsesOwn c user call.1 call.2) : T' fd = some h := by
  apply Descriptors.Run.keeps run (lasts_of_ne_other hother) held
  rintro ⟨table, ⟨op, ans⟩⟩ hcall hheld result hop
  obtain rfl : op = .close fd := op_of_tableOp hop
  obtain ⟨-, owner, hopen⟩ := own _ hcall
  exact hfile owner (Option.some.inj (hheld.symm.trans hopen))

/-- The first event of a run. -/
theorem TableRun.cons_inv {rest : List ServerEvent} (run : TableRun c user T calls T')
    (hevents : calls.map Prod.snd = e :: rest) :
    ∃ table later U, calls = (table, e) :: later ∧ later.map Prod.snd = rest ∧
      TableRun c user T [] table ∧ Step table (tableOp c user e) U ∧
      TableRun c user U later T' := by
  obtain ⟨⟨table, _⟩, later, rfl, rfl, rfl⟩ := List.map_eq_cons_iff.mp hevents
  obtain ⟨found, U, step, rest⟩ := Descriptors.Run.cons_inv run
  exact ⟨table, later, U, rfl, rfl, found, step, rest⟩

theorem usesOwn_of_unused (he : e.op.usesFile = false) : UsesOwn c user T e := by
  obtain ⟨op, ans⟩ := e
  cases op <;> trivial

theorem call_of_not_onDescriptor {x : Transfers} (he : e.op.onDescriptor = false) :
    x.call user e = x := by
  obtain ⟨op, ans⟩ := e
  cases op <;> first | rfl | cases he

/-- Events that make no call on descriptors. -/
theorem foldl_of_not_onDescriptor {events : List ServerEvent} {x : Transfers}
    (avoids : ∀ e ∈ events, e.op.onDescriptor = false) :
    events.foldl (Transfers.call user) x = x := by
  induction events with
  | nil => rfl
  | cons e rest ih =>
      obtain ⟨here, later⟩ := List.forall_mem_cons.mp avoids
      rw [List.foldl_cons, call_of_not_onDescriptor here, ih later]

theorem ne_zero_of_file (standard : T 0 = some .standard) (held : T fd = some (.file c user)) :
    fd ≠ 0 := by
  rintro rfl
  rw [standard] at held
  cases held

end Table

/-! ### Served packets -/

/-- A packet used only what its connection holds, and left it what it then holds. -/
structure Served (c : ConnId) (user : Str) (x : Transfers) (T' : DescriptorTable)
    (calls : List (DescriptorTable × ServerEvent)) (after : Session) : Prop where
  own : ∀ call ∈ calls, UsesOwn c user call.1 call.2
  holds : Holds T' c after ((calls.map Prod.snd).foldl (Transfers.call user) x)

section Packets

variable {c : ConnId} {user : Str} {x : Transfers} {T T' : DescriptorTable}
  {session after : Session} {calls : List (DescriptorTable × ServerEvent)}

/-- A connection without transfers. -/
theorem holds_idle (hsocket : T session.socketFd = some (.socket c)) : Holds T c session .idle where
  socket := hsocket
  upload := by rintro _ ⟨⟩
  download := by rintro _ ⟨⟩
  apart := fun hx => absurd rfl hx

theorem Holds.mono (holds : Holds T c session x)
    (keeps : ∀ fd h, h ≠ .other → T fd = some h → T' fd = some h) : Holds T' c session x where
  socket := keeps _ _ (by simp) holds.socket
  upload := fun user hx => keeps _ _ (by simp) (holds.upload user hx)
  download := fun user hx => keeps _ _ (by simp) (holds.download user hx)
  apart := holds.apart

theorem Holds.of_same (holds : Holds T c session x) (same : SameDescriptors session after) :
    Holds T c after x where
  socket := by rw [same.socketFd]; exact holds.socket
  upload := by rw [same.fd]; exact holds.upload
  download := by rw [same.downloadFd]; exact holds.download
  apart := by rw [same.fd, same.downloadFd]; exact holds.apart

/-- Calls that use no open descriptor. -/
theorem own_of_unused (unused : ∀ e ∈ calls.map Prod.snd, e.op.usesFile = false) :
    ∀ call ∈ calls, UsesOwn c user call.1 call.2 :=
  fun _ hcall => usesOwn_of_unused (unused _ (List.mem_map_of_mem hcall))

theorem own_of_avoids (avoids : ∀ e ∈ calls.map Prod.snd, e.op.onDescriptor = false) :
    ∀ call ∈ calls, UsesOwn c user call.1 call.2 :=
  own_of_unused fun e he => SysCall.usesFile_of_not_onDescriptor (avoids e he)

/-- A packet that closes nothing and leaves the transfers. -/
theorem served_of_unclosed (holds : Holds T c session x) (run : TableRun c user T calls T')
    (own : ∀ call ∈ calls, UsesOwn c user call.1 call.2)
    (unclosed : ∀ e ∈ calls.map Prod.snd, ∀ fd, e.op ≠ .close fd)
    (hx : (calls.map Prod.snd).foldl (Transfers.call user) x = x)
    (same : SameDescriptors session after) : Served c user x T' calls after where
  own := own
  holds := by
    rw [hx]
    refine (holds.mono fun fd h hother held => ?_).of_same same
    exact run.keeps hother held fun e he => unclosed e he fd

/-- The calls of the packet are not on descriptors. -/
theorem served_of_avoids (holds : Holds T c session x) (run : TableRun c user T calls T')
    (avoids : ∀ e ∈ calls.map Prod.snd, e.op.onDescriptor = false)
    (same : SameDescriptors session after) : Served c user x T' calls after := by
  apply served_of_unclosed holds run (own_of_avoids avoids) _
    (foldl_of_not_onDescriptor avoids) same
  intro e he fd hop
  have hno := avoids e he
  rw [hop] at hno
  cases hno

/-! ### Uploads -/

theorem uploadedBy_eq_some {file : Int} {owner : Str} :
    uploadedBy user file = some owner ↔ 0 ≤ file ∧ user = owner := by
  simp [uploadedBy]

/-- The upload begins with the file, when it was opened. -/
theorem served_start {path : Str} {file : Int} {frame : List UInt8}
    (holds : Holds T c session x) (run : TableRun c user T calls T')
    (hevents : calls.map Prod.snd = [⟨.openFile path true, file⟩, ⟨.send frame, ()⟩]) :
    Served c user x T' calls { session with fd := file } := by
  have keeps : ∀ fd h, h ≠ .other → T fd = some h → T' fd = some h := by
    intro fd h hother held
    apply run.keeps hother held
    simp [hevents]
  obtain ⟨table, later, U, rfl, hlater, found, step, rest⟩ := run.cons_inv hevents
  have opened (hfile : 0 ≤ file) : LowestFree table file ∧ T' file = some (.file c user) := by
    rcases step.of_opens with ⟨lowest, rfl⟩ | ⟨hfailed, -⟩
    · refine ⟨lowest, rest.keeps (by simp) (Function.update_self ..) ?_⟩
      simp [hlater]
    · omega
  constructor
  · exact List.forall_mem_cons.mpr ⟨trivial, own_of_unused (by simp [hlater, SysCall.usesFile])⟩
  · rw [hevents]
    have kept := holds.mono keeps
    refine ⟨kept.socket, fun owner hx => ?_, kept.download, fun hx hdownload => ?_⟩
    · obtain ⟨hfile, rfl⟩ := uploadedBy_eq_some.mp hx
      exact (opened hfile).2
    · obtain ⟨owner, hx⟩ := Option.ne_none_iff_exists'.mp hx
      obtain ⟨hfile, -⟩ := uploadedBy_eq_some.mp hx
      obtain ⟨reader, hdownload⟩ := Option.ne_none_iff_exists'.mp hdownload
      have held := found.keeps (by simp) (holds.download reader hdownload) (by simp)
      exact ((opened hfile).1.ne held).symm

theorem served_write {data : Buffer} {count : Nat} {written : Int} {frame : List UInt8}
    (standard : T 0 = some .standard) (holds : Holds T c session x)
    (run : TableRun c user T calls T')
    (hevents : calls.map Prod.snd = [⟨.write session.fd data count, written⟩, ⟨.send frame, ()⟩])
    (hupload : x.upload = some user) : Served c user x T' calls session := by
  have unclosed : ∀ e ∈ calls.map Prod.snd, ∀ fd, e.op ≠ .close fd := by simp [hevents]
  have hx : (calls.map Prod.snd).foldl (Transfers.call user) x = x := by rw [hevents]; rfl
  refine served_of_unclosed holds run ?_ unclosed hx (.refl _)
  have held := holds.upload user hupload
  obtain ⟨table, later, U, rfl, hlater, found, -, -⟩ := run.cons_inv hevents
  exact List.forall_mem_cons.mpr
    ⟨⟨ne_zero_of_file standard held, found.keeps (by simp) held (by simp)⟩,
      own_of_unused (by simp [hlater, SysCall.usesFile])⟩

/-! ### Downloads -/

/-- The download begins with the size of the file. -/
theorem served_open {path : Str} {file : Int} {fileSize : Nat} {frame : List UInt8}
    (holds : Holds T c session x) (run : TableRun c user T calls T') (hfile : ¬ file ≤ 0)
    (hevents : calls.map Prod.snd = [⟨.openFile path false, file⟩, ⟨.fstat file, some fileSize⟩,
      ⟨.send frame, ()⟩]) :
    Served c user x T' calls { session with downloadFd := file } := by
  have keeps : ∀ fd h, h ≠ .other → T fd = some h → T' fd = some h := by
    intro fd h hother held
    apply run.keeps hother held
    simp [hevents]
  obtain ⟨table, later, U, rfl, hlater, found, step, rest⟩ := run.cons_inv hevents
  obtain ⟨lowest, opened⟩ : LowestFree table file ∧ T' file = some (.file c user) := by
    rcases step.of_opens with ⟨lowest, rfl⟩ | ⟨hfailed, -⟩
    · refine ⟨lowest, rest.keeps (by simp) (Function.update_self ..) ?_⟩
      simp [hlater]
    · omega
  constructor
  · obtain ⟨_, later, _, rfl, hlater, -⟩ := rest.cons_inv hlater
    exact List.forall_mem_cons.mpr ⟨trivial, List.forall_mem_cons.mpr
      ⟨trivial, own_of_unused (by simp [hlater, SysCall.usesFile])⟩⟩
  · rw [hevents]
    have kept := holds.mono keeps
    refine ⟨kept.socket, kept.upload, fun owner hx => ?_, fun hupload _ => ?_⟩
    · cases hx
      exact opened
    · obtain ⟨writer, hupload⟩ := Option.ne_none_iff_exists'.mp hupload
      exact lowest.ne (found.keeps (by simp) (holds.upload writer hupload) (by simp))

/-- The handler seeks, and then works on the same file. -/
theorem TableRun.seek_inv {fd offset position : Int} {e : ServerEvent} {rest : List ServerEvent}
    (run : TableRun c user T calls T') (held : T fd = some (.file c user))
    (hevents : calls.map Prod.snd = ⟨.lseek fd offset, position⟩ :: e :: rest) :
    ∃ first second later, calls = (first, ⟨.lseek fd offset, position⟩) :: (second, e) :: later ∧
      later.map Prod.snd = rest ∧ first fd = some (.file c user) ∧
      second fd = some (.file c user) := by
  obtain ⟨first, later, U, rfl, hlater, found, step, more⟩ := run.cons_inv hevents
  have heldFirst : first fd = some (.file c user) := found.keeps (by simp) held (by simp)
  obtain rfl : U = first := step.of_use
  obtain ⟨second, later, U', rfl, hlater, found, -, -⟩ := more.cons_inv hlater
  exact ⟨U, second, later, rfl, hlater, heldFirst, found.keeps (by simp) heldFirst (by simp)⟩

theorem served_read {offset position : Int} {count : Nat} {data : Option (List UInt8)}
    {frame : List UInt8} (standard : T 0 = some .standard) (holds : Holds T c session x)
    (run : TableRun c user T calls T')
    (hevents : calls.map Prod.snd = [⟨.lseek session.downloadFd offset, position⟩,
      ⟨.read session.downloadFd count, data⟩, ⟨.send frame, ()⟩])
    (hdownload : x.download = some user) : Served c user x T' calls session := by
  have unclosed : ∀ e ∈ calls.map Prod.snd, ∀ fd, e.op ≠ .close fd := by simp [hevents]
  have hx : (calls.map Prod.snd).foldl (Transfers.call user) x = x := by rw [hevents]; rfl
  refine served_of_unclosed holds run ?_ unclosed hx (.refl _)
  have held := holds.download user hdownload
  have hzero := ne_zero_of_file standard held
  obtain ⟨first, second, later, rfl, hlater, heldFirst, heldSecond⟩ := run.seek_inv held hevents
  exact List.forall_mem_cons.mpr ⟨⟨hzero, heldFirst⟩, List.forall_mem_cons.mpr
    ⟨⟨hzero, heldSecond⟩, own_of_unused (by simp [hlater, SysCall.usesFile])⟩⟩

/-- The download ends. -/
theorem Holds.closed {owner : Str} (holds : Holds T c session x)
    (hdownload : x.download = some owner) (hsocket : after.socketFd = session.socketFd)
    (hfd : after.fd = session.fd)
    (keeps : ∀ fd h, h ≠ .other → fd ≠ session.downloadFd → T fd = some h → T' fd = some h) :
    Holds T' c after { x with download := none } where
  socket := by
    have hne : session.socketFd ≠ session.downloadFd := by
      intro heq
      have held := holds.download owner hdownload
      rw [← heq, holds.socket] at held
      cases held
    rw [hsocket]
    exact keeps _ _ (by simp) hne holds.socket
  upload := fun user hx => by
    have hne := holds.apart (by simp [show x.upload = some user from hx]) (by simp [hdownload])
    rw [hfd]
    exact keeps _ _ (by simp) hne (holds.upload user hx)
  download := fun _ hx => by cases hx
  apart := fun _ hx => absurd rfl hx

theorem served_close {owner : Str} {result : Int} {frame : List UInt8}
    (standard : T 0 = some .standard) (holds : Holds T c session x)
    (run : TableRun c user T calls T')
    (hevents : calls.map Prod.snd = [⟨.close session.downloadFd, result⟩, ⟨.send frame, ()⟩])
    (hdownload : x.download = some owner) : Served c user x T' calls session := by
  have keeps : ∀ fd h, h ≠ .other → fd ≠ session.downloadFd → T fd = some h → T' fd = some h := by
    intro fd h hother hne held
    apply run.keeps hother held
    simpa [hevents] using hne.symm
  have held := holds.download owner hdownload
  obtain ⟨table, later, U, rfl, hlater, found, -, -⟩ := run.cons_inv hevents
  constructor
  · exact List.forall_mem_cons.mpr
      ⟨⟨ne_zero_of_file standard held, owner, found.keeps (by simp) held (by simp)⟩,
        own_of_unused (by simp [hlater, SysCall.usesFile])⟩
  · rw [hevents]
    exact holds.closed hdownload rfl rfl keeps

/-- The chunk is not there: the download ends. -/
theorem served_notThere {offset position result : Int} {frame : List UInt8}
    (standard : T 0 = some .standard) (holds : Holds T c session x)
    (run : TableRun c user T calls T')
    (hevents : calls.map Prod.snd = [⟨.lseek session.downloadFd offset, position⟩,
      ⟨.close session.downloadFd, result⟩, ⟨.send frame, ()⟩, ⟨.send frame, ()⟩])
    (hdownload : x.download = some user) :
    Served c user x T' calls { session with downloadFd := 0 } := by
  have keeps : ∀ fd h, h ≠ .other → fd ≠ session.downloadFd → T fd = some h → T' fd = some h := by
    intro fd h hother hne held
    apply run.keeps hother held
    simpa [hevents] using hne.symm
  have held := holds.download user hdownload
  have hzero := ne_zero_of_file standard held
  obtain ⟨first, second, later, rfl, hlater, heldFirst, heldSecond⟩ := run.seek_inv held hevents
  constructor
  · exact List.forall_mem_cons.mpr ⟨⟨hzero, heldFirst⟩, List.forall_mem_cons.mpr
      ⟨⟨hzero, user, heldSecond⟩, own_of_unused (by simp [hlater, SysCall.usesFile])⟩⟩
  · rw [hevents]
    exact holds.closed hdownload rfl rfl keeps

end Packets

/-! ### Dispatched packets -/

/-- A packet uses only its own descriptors, and its connection holds the transfers that its
calls leave open. -/
structure PacketServed (c : ConnId) (user : Str) (x : Transfers) (T' : DescriptorTable)
    (calls : List (DescriptorTable × ServerEvent)) (out : Except Fault HandlerState) : Prop where
  own : ∀ call ∈ calls, UsesOwn c user call.1 call.2
  holds : ∀ t, out = .ok t →
    Holds T' c t.session ((calls.map Prod.snd).foldl (Transfers.call user) x)

section Dispatch

variable {users : DatabaseHandler} {fuel : Nat} {receiveBuffer : Buffer} {cb : ConnectionBuffer}
  {ty : PacketType} {s t : HandlerState} {out : Except Fault HandlerState} {c : ConnId}
  {x : Transfers} {T T' : DescriptorTable} {calls : List (DescriptorTable × ServerEvent)}

theorem Served.packet {user : Str} {after : Session} (served : Served c user x T' calls after)
    (ht : t.session = after) : PacketServed c user x T' calls (.ok t) where
  own := served.own
  holds := by
    rintro _ ⟨⟩
    rw [ht]
    exact served.holds

/-- A program that makes no call on descriptors. -/
theorem packetServed_of_avoids {user : Str} {p : ServerProg HandlerState}
    (holds : Holds T c s.session x) (run : TableRun c user T calls T')
    (keeps : KeepsDescriptors s.session p) (exec : Exec p (calls.map Prod.snd) out) :
    PacketServed c user x T' calls out := by
  obtain ⟨avoids, same⟩ := keeps.sound exec fun _ _ => trivial
  refine ⟨own_of_avoids avoids, ?_⟩
  rintro t rfl
  exact (served_of_avoids holds run avoids same).holds

theorem packetServed_start {user : Str} (holds : Holds T c s.session x)
    (run : TableRun c user T calls T')
    (exec : Exec (reqFileTransferStart cb s) (calls.map Prod.snd) out) :
    PacketServed c user x T' calls out := by
  rcases exec_reqFileTransferStart_cases exec with ⟨p, keeps, refused⟩ | ⟨_, file, hevents, rfl⟩
  · exact packetServed_of_avoids holds run keeps refused
  · exact (served_start holds run hevents).packet rfl

theorem packetServed_write {user : Str} {answer : PacketType} (standard : T 0 = some .standard)
    (holds : Holds T c s.session x) (run : TableRun c user T calls T')
    (hupload : x.upload = some user)
    (exec : Exec (writeFileData answer cb s) (calls.map Prod.snd) out) :
    PacketServed c user x T' calls out := by
  obtain ⟨written, hevents, rfl⟩ := exec_writeFileData_iff.mp exec
  exact (served_write standard holds run hevents hupload).packet rfl

theorem packetServed_open {user : Str} (holds : Holds T c s.session x)
    (run : TableRun c user T calls T') (exec : Exec (reqFileOpen cb s) (calls.map Prod.snd) out) :
    PacketServed c user x T' calls out := by
  rcases exec_reqFileOpen_cases exec with ⟨p, keeps, refused⟩ | ⟨_, _, t, rfl, opens⟩
  · exact packetServed_of_avoids holds run keeps refused
  · generalize hevents : calls.map Prod.snd = events at opens
    cases opens with
    | notOpened file hfile =>
        refine (served_of_unclosed holds run ?_ (by simp [hevents]) ?_ (.refl _)).packet rfl
        · exact own_of_unused (by simp [hevents, SysCall.usesFile])
        · rw [hevents]
          rfl
    | noSize file hfile =>
        refine (served_of_unclosed holds run ?_ (by simp [hevents]) ?_ (.refl _)).packet rfl
        · exact own_of_unused (by simp [hevents, SysCall.usesFile])
        · rw [hevents]
          rfl
    | opened file fileSize p hfile hp =>
        exact (served_open holds run hfile hevents).packet rfl

theorem packetServed_read {user : Str} (standard : T 0 = some .standard)
    (holds : Holds T c s.session x) (run : TableRun c user T calls T')
    (hdownload : x.download = some user)
    (exec : Exec (reqFileDownloadChunk cb s) (calls.map Prod.snd) out) :
    PacketServed c user x T' calls out := by
  obtain ⟨t, rfl, reads⟩ := exec_reqFileDownloadChunk_iff.mp exec
  generalize hevents : calls.map Prod.snd = events at reads
  cases reads with
  | notThere position closed hposition =>
      exact (served_notThere standard holds run hevents hdownload).packet rfl
  | answered data => exact (served_read standard holds run hevents hdownload).packet rfl

theorem packetServed_close {user owner : Str} (standard : T 0 = some .standard)
    (holds : Holds T c s.session x) (run : TableRun c user T calls T')
    (hdownload : x.download = some owner)
    (succeeds : ∀ fd (result : Int), ⟨.close fd, result⟩ ∈ calls.map Prod.snd → 0 ≤ result)
    (exec : Exec (reqFileClose s) (calls.map Prod.snd) out) :
    PacketServed c user x T' calls out := by
  rcases exec_reqFileClose_cases exec with ⟨_, _, hevents, rfl⟩ | ⟨closed, _, failed, hevents, rfl⟩
  · exact (served_close standard holds run hevents hdownload).packet rfl
  · have hclosed : 0 ≤ closed := succeeds s.session.downloadFd closed (by simp [hevents])
    omega

theorem isTransfer_cases (h : ty.isTransfer = true) :
    ty = .reqFileTransferStart ∨ ty = .reqFileTransferChunk ∨ ty = .reqFileTransferEnd ∨
      ty = .reqFileOpen ∨ ty = .reqFileDownloadChunk ∨ ty = .reqFileClose := by
  cases ty <;> simp_all [PacketType.isTransfer]

/-- A packet whose transfer is open, if it is of one. -/
theorem packetServed_dispatch (standard : T 0 = some .standard) (holds : Holds T c s.session x)
    (run : TableRun c s.session.id T calls T')
    (finds : s.session.id ≠ [] → FindsOpen x s.session.id (calls.map Prod.snd) ty)
    (exec : Exec (dispatch users fuel ty receiveBuffer cb s) (calls.map Prod.snd) out) :
    PacketServed c s.session.id x T' calls out := by
  by_cases avoids : ty.isTransfer = false ∨ s.session.id = []
  · exact packetServed_of_avoids holds run (dispatch_avoids avoids) exec
  · obtain ⟨htransfer, hid⟩ := not_or.mp avoids
    have found := finds hid
    rcases isTransfer_cases (Bool.not_eq_false _ ▸ htransfer) with
      rfl | rfl | rfl | rfl | rfl | rfl
    · rw [dispatch_authorized hid rfl] at exec
      exact packetServed_start holds run exec
    · rw [dispatch_authorized hid rfl] at exec
      exact packetServed_write standard holds run found exec
    · rw [dispatch_authorized hid rfl] at exec
      exact packetServed_write standard holds run found exec
    · rw [dispatch_authorized hid rfl] at exec
      exact packetServed_open holds run exec
    · rw [dispatch_authorized hid rfl] at exec
      exact packetServed_read standard holds run found exec
    · rw [dispatch_authorized hid rfl] at exec
      obtain ⟨owner, hdownload⟩ := Option.ne_none_iff_exists'.mp found.1
      exact packetServed_close standard holds run hdownload found.2 exec

end Dispatch

/-! ### Disconnects -/

section Disconnects

variable {c : ConnId} {user : Str} {x : Transfers} {T T' : DescriptorTable} {session : Session}
  {g : GlobalState} {calls : List (DescriptorTable × ServerEvent)} {out : Except Fault GlobalState}

/-- The destructor closes both descriptors, and then works on none. -/
theorem destroyConnection_inv {events : List ServerEvent}
    (exec : Exec (destroyConnection session g) events out) :
    ∃ first second rest, events = ⟨.close session.fd, first⟩ ::
        ⟨.close session.downloadFd, second⟩ :: rest ∧ ∀ e ∈ rest, e.op.onDescriptor = false := by
  obtain ⟨first, _, rfl, next⟩ := exec_sys_iff.mp exec
  obtain ⟨second, rest, rfl, last⟩ := exec_sys_iff.mp next
  refine ⟨first, second, rest, rfl, ?_⟩
  suffices abstains : Abstains _ from (abstains.sound last fun _ _ => trivial).1
  exact avoids_bind (abstains_orUndefined _) fun _ => avoids_call rfl fun _ => trivial

/-- With both transfers open, the destructor closes files of its connection. -/
theorem own_of_destroyConnection (standard : T 0 = some .standard) (holds : Holds T c session x)
    (hupload : x.upload ≠ none) (hdownload : x.download ≠ none)
    (run : TableRun c user (Function.update T session.socketFd none) calls T')
    (exec : Exec (destroyConnection session g) (calls.map Prod.snd) out) :
    ∀ call ∈ calls, UsesOwn c user call.1 call.2 := by
  have hapart := holds.apart hupload hdownload
  obtain ⟨writer, hupload⟩ := Option.ne_none_iff_exists'.mp hupload
  obtain ⟨reader, hdownload⟩ := Option.ne_none_iff_exists'.mp hdownload
  have heldUpload := holds.upload writer hupload
  have heldDownload := holds.download reader hdownload
  have notSocket {fd : Int} {owner : Str} (held : T fd = some (.file c owner)) :
      Function.update T session.socketFd none fd = some (.file c owner) := by
    rwa [Function.update_of_ne]
    rintro rfl
    rw [holds.socket] at held
    cases held
  obtain ⟨r, r', rest, hevents, avoids⟩ := destroyConnection_inv exec
  obtain ⟨first, later, U, rfl, hlater, found, step, more⟩ := run.cons_inv hevents
  have heldFirst : first session.fd = some (.file c writer) :=
    found.keeps (by simp) (notSocket heldUpload) (by simp)
  have heldNext : first session.downloadFd = some (.file c reader) :=
    found.keeps (by simp) (notSocket heldDownload) (by simp)
  obtain rfl : U = _ := step.of_close heldFirst
  obtain ⟨second, later, U', rfl, hlater, found, -, -⟩ := more.cons_inv hlater
  have heldSecond : second session.downloadFd = some (.file c reader) := by
    apply found.keeps (by simp) _ (by simp)
    rwa [Function.update_of_ne hapart.symm]
  exact List.forall_mem_cons.mpr ⟨⟨ne_zero_of_file standard heldUpload, writer, heldFirst⟩,
    List.forall_mem_cons.mpr ⟨⟨ne_zero_of_file standard heldDownload, reader, heldSecond⟩,
      own_of_avoids (by rwa [hlater])⟩⟩

end Disconnects

/-! ### Runs -/

section Runs

variable {users : DatabaseHandler} {w v : DescriptorState} {l : DescriptorLabel} {c : ConnId}

theorem disown_of_ne {T : DescriptorTable} {fd : Int} {h : Holding} (held : T fd = some h)
    (hfile : ∀ owner, h ≠ .file c owner) : disown c T fd = some h := by
  unfold disown
  rw [held]
  cases h with
  | file d user =>
      have hd : d ≠ c := by
        rintro rfl
        exact hfile user rfl
      simp [hd]
  | _ => rfl

/-- What a step leaves of the table for everybody else. -/
def KeepsOthers (c : ConnId) (T T' : DescriptorTable) : Prop :=
  ∀ fd h, h ≠ .other → h ≠ .socket c → (∀ owner, h ≠ .file c owner) → T fd = some h →
    T' fd = some h

/-- A step about connection `c` that keeps what others hold. -/
theorem TableSound.of_step {x : Transfers} (sound : TableSound w)
    (hlive : ∀ d, d ≠ c → v.live d = w.live d)
    (htransfers : ∀ d, d ≠ c → v.transfers d = w.transfers d) (hx : v.transfers c = x)
    (others : KeepsOthers c w.table v.table)
    (own : ∀ session, v.live c = some session → Holds v.table c session x) : TableSound v where
  standard := others _ _ (by simp) (by simp) (by simp) sound.standard
  holds := by
    intro d session hd
    by_cases hdc : d = c
    · subst hdc
      rw [hx]
      exact own session hd
    · rw [hlive d hdc] at hd
      rw [htransfers d hdc]
      have held := sound.holds d session hd
      constructor
      · exact others _ _ (by simp) (by simpa using hdc) (by simp) held.socket
      · intro user hx
        exact others _ _ (by simp) (by simp) (by simp [hdc]) (held.upload user hx)
      · intro user hx
        exact others _ _ (by simp) (by simp) (by simp [hdc]) (held.download user hx)
      · exact held.apart

/-- What others change meanwhile. -/
theorem found_of_changes {T T' : DescriptorTable} (changes : OtherChanges T T') :
    TableRun c [] T [] T' := .other changes (.nil T')

theorem TableSound.accept {socketFd : Int} {T : DescriptorTable} (now : TableSound w)
    (changes : OtherChanges w.table T) (lowest : LowestFree T socketFd) :
    TableSound ⟨w.next c (.ok (some (.accepted socketFd), w.g)),
      Function.update T socketFd (some (.socket c)), Function.update w.transfers c .idle⟩ := by
  apply now.of_step (x := .idle)
  · intro d hd
    exact RequestState.live_next_of_ne _ _ hd
  · intro d hd
    exact Function.update_of_ne hd ..
  · exact Function.update_self ..
  · intro fd h hother _ _ held
    have held := (found_of_changes (c := c) changes).keeps hother held (by simp)
    exact (Function.update_of_ne (lowest.ne held) ..).trans held
  · intro session hlive
    cases (RequestState.live_next_self ..).symm.trans hlive
    exact holds_idle (Function.update_self ..)

theorem TableSound.packet {user : Str} {T : DescriptorTable} {t : HandlerState}
    {calls : List (DescriptorTable × ServerEvent)} (now : TableSound w)
    (run : TableRun c user w.table calls T)
    (served : PacketServed c user (w.transfers c) T calls (.ok t)) :
    TableSound ⟨w.next c (.ok (some t.session, t.g)), T, Function.update w.transfers c
      ((calls.map Prod.snd).foldl (Transfers.call user) (w.transfers c))⟩ := by
  apply now.of_step
  · intro d hd
    exact RequestState.live_next_of_ne _ _ hd
  · intro d hd
    exact Function.update_of_ne hd ..
  · exact Function.update_self ..
  · intro fd h hother _ hfile held
    exact run.keeps_others hother hfile held served.own
  · intro after hafter
    cases (RequestState.live_next_self ..).symm.trans hafter
    exact served.holds t rfl

theorem TableSound.disconnect {user : Str} {session : Session} {T U : DescriptorTable}
    {g : GlobalState} {calls : List (DescriptorTable × ServerEvent)} (now : TableSound w)
    (hlive : w.live c = some session) (changes : OtherChanges w.table T)
    (run : TableRun c user (Function.update T session.socketFd none) calls U)
    (own : ∀ call ∈ calls, UsesOwn c user call.1 call.2) :
    TableSound ⟨w.next c (.ok (none, g)), disown c U, w.transfers⟩ := by
  apply now.of_step (c := c)
  · intro d hd
    exact RequestState.live_next_of_ne _ _ hd
  · intro d hd
    rfl
  · rfl
  · intro fd h hother hsocket hfile held
    have socket := (now.holds c session hlive).socket
    have hne : fd ≠ session.socketFd := by
      rintro rfl
      exact hsocket (Option.some.inj (held.symm.trans socket))
    have held := (found_of_changes (c := c) changes).keeps hother held (by simp)
    have held := (Function.update_of_ne hne none T).trans held
    exact disown_of_ne (run.keeps_others hother hfile held own) hfile
  · intro after hafter
    cases (RequestState.live_next_self ..).symm.trans hafter

/-- A step from a sound table that meets the condition uses its own descriptors, and
leaves a sound table. -/
theorem DescriptorStep.sound (step : DescriptorStep users w l v) (now : TableSound w)
    (meets : InTransfer w l) :
    OwnsDescriptors ⟨w, l, v⟩ ∧ (v.terminated = false → TableSound v) := by
  cases step with
  | @accept c socketFd v T request changes lowest =>
      cases request
      constructor
      · rintro session - call ⟨⟩
      · exact fun _ => now.accept changes lowest
  | @packet c ty receiveBuffer tls cb out v session T calls hlive request run =>
      obtain ⟨fuel, _, hlive', exec, -, rfl⟩ := request.packet_inv
      cases hlive.symm.trans hlive'
      have served : PacketServed c session.id (w.transfers c) T calls out :=
        packetServed_dispatch now.standard (now.holds c session hlive) run
          (fun hid => meets session hlive hid) exec
      constructor
      · intro _ hsession
        cases hlive.symm.trans hsession
        exact served.own
      · intro running
        cases out with
        | error e => cases running
        | ok t => exact now.packet run served
  | @disconnect c out v session T U calls hlive request changes run =>
      have found : TableRun c [] w.table [] T := found_of_changes changes
      have standard : T 0 = some .standard := found.keeps (by simp) now.standard (by simp)
      have holds : Holds T c session (w.transfers c) :=
        (now.holds c session hlive).mono fun fd h hother held => found.keeps hother held (by simp)
      obtain ⟨exec, rfl⟩ := request.disconnect_inv hlive
      have own := own_of_destroyConnection standard holds meets.1 meets.2 run exec
      constructor
      · intro _ hsession
        cases hlive.symm.trans hsession
        exact own
      · intro running
        cases out with
        | error e => cases running
        | ok g => exact now.disconnect hlive changes run own

theorem tableSound_initial : TableSound .initial where
  standard := rfl
  holds := by rintro c session ⟨⟩

/-- In a run whose data and closes all come while their transfer is open, every read, seek,
write and close is made on an open file of the connection, never on descriptor 0, and
contents are used under the login id that opened the file. -/
theorem descriptors_owned {moves : List (Move DescriptorState DescriptorLabel)}
    (run : Run (descriptorSystem users) .initial moves w)
    (meets : ∀ m ∈ moves, InTransfer m.pre m.label) : ∀ m ∈ moves, OwnsDescriptors m := by
  have sound : ∀ m : Move DescriptorState DescriptorLabel,
      (m.pre.terminated = false → TableSound m.pre) →
      (descriptorSystem users).step m.pre m.label m.post → InTransfer m.pre m.label →
      OwnsDescriptors m ∧ (m.post.terminated = false → TableSound m.post) := by
    rintro ⟨pre, label, post⟩ now ⟨running, step⟩ ok
    exact step.sound (now running) ok
  exact run.moves_of_meets (I := fun w => w.terminated = false → TableSound w) sound
    (fun _ => tableSound_initial) meets

/-! ### A client that connects and leaves -/

theorem otherChanges_refl (T : DescriptorTable) : OtherChanges T T := fun _ => .inl rfl

/-- The listening socket and one more descriptor are open. -/
def DescriptorTable.started : DescriptorTable := fun fd =>
  if fd = 3 ∨ fd = 4 then some .other else DescriptorTable.initial fd

theorem otherChanges_started : OtherChanges .initial .started := by
  intro fd
  by_cases h : fd = 3 ∨ fd = 4
  · right
    left
    rcases h with rfl | rfl
    · decide
    · decide
  · left
    simp [DescriptorTable.started, h]

theorem lowestFree_started : LowestFree DescriptorTable.started 5 where
  nonneg := by decide
  free := by decide
  lowest := by
    intro other hnonneg hlt
    by_cases h : other = 3 ∨ other = 4
    · simp [DescriptorTable.started, h]
    · have hstandard : other < 3 := by omega
      simp [DescriptorTable.started, DescriptorTable.initial, h, hnonneg, hstandard]

/-- A client has connected. -/
def DescriptorState.connected : DescriptorState where
  toRequestState := RequestState.initial.next 0 (.ok (some (.accepted 5), .initial))
  table := Function.update DescriptorTable.started 5 (some (.socket 0))
  transfers := Function.update (fun _ => .idle) 0 .idle

theorem step_connected :
    DescriptorStep exampleUsers .initial ⟨.accept 0 5, []⟩ .connected :=
  .accept (.accept rfl) otherChanges_started lowestFree_started

/-- The destructor of a connection that transferred nothing closes standard input. -/
theorem disconnect_closes_standard :
    ∃ moves w, Run (descriptorSystem exampleUsers) .initial moves w ∧
      ¬ ∀ m ∈ moves, OwnsDescriptors m := by
  let T := Function.update DescriptorState.connected.table 5 none
  let calls : List (DescriptorTable × ServerEvent) :=
    [(T, ⟨.close 0, (0 : Int)⟩), (Function.update T 0 none, ⟨.close 0, (-1 : Int)⟩),
      (Function.update T 0 none, ⟨.opendir (serverFilesDir ++ [slash]), (none : Option _)⟩)]
  have destroyed : Exec (destroyConnection (.accepted 5) .initial) (calls.map Prod.snd)
      (.ok .initial) := .call _ (.call _ (.call _ (.ret _)))
  have closes : TableRun 0 [] T calls (Function.update T 0 none) :=
    .call (.close (by decide)) (.call (.badClose (Function.update_self ..)) (.call .idle (.nil _)))
  have left : DescriptorStep exampleUsers .connected
      ⟨.disconnect 0 (calls.map Prod.snd) (.ok .initial), calls⟩ _ :=
    .disconnect (RequestState.live_next_self ..)
      (.disconnect (RequestState.live_next_self ..) destroyed) (otherChanges_refl _) closes
  have run : Run (descriptorSystem exampleUsers) .initial _ _ :=
    .cons ⟨rfl, step_connected⟩ (.cons ⟨rfl, left⟩ (.nil _))
  refine ⟨_, _, run, fun own => ?_⟩
  have uses := own _ (List.mem_cons_of_mem _ List.mem_cons_self) (.accepted 5)
    (RequestState.live_next_self ..) _ List.mem_cons_self
  exact uses.1 rfl

/-! ### A client that uploads -/

/-- A request that makes no call on descriptors leaves the table and the transfers. -/
theorem exists_step_of_avoids {ty : PacketType} {receiveBuffer tls : Buffer}
    {cb : ConnectionBuffer} {session : Session} {t : HandlerState} {events : List ServerEvent}
    (fuel : Nat) (hlive : w.live c = some session)
    (exec : Exec (dispatch users fuel ty receiveBuffer cb ⟨session, w.g, tls⟩) events (.ok t))
    (avoids : ty.isTransfer = false ∨ session.id = []) :
    ∃ calls, DescriptorStep users w ⟨.packet c ty receiveBuffer cb tls events (.ok t), calls⟩
      ⟨w.next c (.ok (some t.session, t.g)), w.table, w.transfers⟩ := by
  have idle := ((dispatch_avoids (s := ⟨session, w.g, tls⟩) avoids).sound exec
    fun _ _ => trivial).1
  let calls := events.map fun e => (w.table, e)
  have hevents : calls.map Prod.snd = events := by simp [calls, Function.comp_def]
  have run : TableRun c session.id w.table calls w.table := by
    clear exec hevents
    induction events with
    | nil => exact .nil _
    | cons e rest ih =>
        obtain ⟨here, later⟩ := List.forall_mem_cons.mp idle
        refine .call ?_ (ih later)
        rw [tableOp_of_not_onDescriptor here]
        exact .idle
  have request : RequestStep users w.toRequestState
      (.packet c ty receiveBuffer cb tls (calls.map Prod.snd) (.ok t))
      (w.next c (.ok (some t.session, t.g))) := .packet fuel hlive (hevents ▸ exec) (by simp)
  have step := DescriptorStep.packet hlive request run
  rw [hevents, foldl_of_not_onDescriptor idle, Function.update_eq_self] at step
  exact ⟨calls, step⟩

/-- The start of an upload of the file `a`. -/
def startPacket : ConnectionBuffer where
  connection := 0
  frame := List.replicate 20 0 ++ ascii "a"

theorem decode_startPacket :
    PacketTransferFileStart.decodeFileName startPacket.buffer = some (ascii "a") := by decide

theorem lowestFree_connected : LowestFree DescriptorState.connected.table 6 where
  nonneg := by decide
  free := by decide
  lowest := by
    intro other hnonneg hlt
    by_cases h : other = 5
    · subst h
      decide
    · have hne : DescriptorState.connected.table other = DescriptorTable.started other :=
        Function.update_of_ne h ..
      rw [hne]
      exact lowestFree_started.lowest other hnonneg (by omega)

/-- The root of the example users has logged in. -/
theorem exists_rootLogin_descriptors :
    ∃ moves w, Run (descriptorSystem exampleUsers) .initial moves w ∧ w.terminated = false ∧
      w.live 0 = some rootSession ∧ w.table = DescriptorState.connected.table ∧
      w.transfers 0 = .idle ∧ ∀ m ∈ moves, InTransfer m.pre m.label := by
  obtain ⟨events, t, login, hsession, -⟩ := exec_reqLogin exampleUsers decode_rootLogin
    ⟨.accepted 5, .initial, Buffer.zero⟩
  rw [afterLogin_root.1] at hsession
  obtain ⟨calls, loggedIn⟩ : ∃ calls, DescriptorStep exampleUsers .connected
      ⟨.packet 0 .reqLogin Buffer.zero (loginPacket 0 (ascii "root") (ascii "a")) Buffer.zero
        events (.ok t), calls⟩ _ :=
    exists_step_of_avoids 0 (RequestState.live_next_self ..) login (.inl rfl)
  have run : Run (descriptorSystem exampleUsers) .initial _ _ :=
    .cons ⟨rfl, step_connected⟩ (.cons ⟨rfl, loggedIn⟩ (.nil _))
  refine ⟨_, _, run, rfl, ?_, rfl, rfl, ?_⟩
  · rw [← hsession]
    exact RequestState.live_next_self ..
  · exact List.forall_mem_cons.mpr ⟨trivial, List.forall_mem_cons.mpr
      ⟨fun _ _ _ => trivial, by simp⟩⟩

/-- The root of the example users logs in, and uploads the bytes of an end packet. -/
theorem descriptors_owned_upload :
    ∃ moves w, Run (descriptorSystem exampleUsers) .initial moves w ∧
      (∃ m ∈ moves, ∃ call ∈ m.label.calls, ∃ data count, call.2.op = .write 6 data count) ∧
      ∀ m ∈ moves, OwnsDescriptors m := by
  obtain ⟨moves, w, login, running, hlive, htable, htransfers, meets⟩ :=
    exists_rootLogin_descriptors
  -- The file gets descriptor 6.
  let T := Function.update w.table 6 (some (.file 0 (ascii "1")))
  let session := { rootSession with fd := 6 }
  let starting : List (DescriptorTable × ServerEvent) :=
    [(w.table, ⟨.openFile (snprintfPath rootSession (ascii "a")) true, (6 : Int)⟩),
      (T, ⟨.send (sampleFrame Buffer.zero .respContinue), ()⟩)]
  let ending : List (DescriptorTable × ServerEvent) :=
    [(T, ⟨.write 6 (fileData startPacket) (payloadLength startPacket), (-1 : Int)⟩),
      (T, ⟨.send (sampleFrame Buffer.zero .respFileTransferOk), ()⟩)]
  let u : HandlerState := ⟨session, w.g, Buffer.zero.setHeader .respContinue sizeofSamplePacket⟩
  let u' : HandlerState :=
    ⟨session, w.g, Buffer.zero.setHeader .respFileTransferOk sizeofSamplePacket⟩
  have starts : Exec (dispatch exampleUsers 0 .reqFileTransferStart Buffer.zero startPacket
      ⟨rootSession, w.g, Buffer.zero⟩) (starting.map Prod.snd) (.ok u) := by
    rw [dispatch_authorized (List.cons_ne_nil _ _) rfl]
    exact (exec_reqFileTransferStart_iff decode_startPacket (by decide)).mpr ⟨6, rfl, rfl⟩
  have ends : Exec (dispatch exampleUsers 0 .reqFileTransferEnd Buffer.zero startPacket
      ⟨session, w.g, Buffer.zero⟩) (ending.map Prod.snd) (.ok u') := by
    rw [dispatch_authorized (List.cons_ne_nil _ _) rfl]
    exact exec_writeFileData_iff.mpr ⟨-1, rfl, rfl⟩
  have opens : TableRun 0 (ascii "1") w.table starting T :=
    .call (.opens (htable ▸ lowestFree_connected)) (.call .idle (.nil _))
  have writes : TableRun 0 (ascii "1") T ending T :=
    .call (.use (by simp [T])) (.call .idle (.nil _))
  have started : DescriptorStep exampleUsers w ⟨.packet 0 _ _ _ _ _ _, starting⟩ _ :=
    .packet hlive (.packet 0 hlive starts (by simp)) opens
  let v : DescriptorState := ⟨w.next 0 (.ok (some session, w.g)), T,
    Function.update w.transfers 0
      ((starting.map Prod.snd).foldl (Transfers.call (ascii "1")) (w.transfers 0))⟩
  have hlive' : v.live 0 = some session := RequestState.live_next_self ..
  have ended : DescriptorStep exampleUsers v ⟨.packet 0 _ _ _ _ _ _, ending⟩ _ :=
    .packet hlive' (.packet 0 hlive' ends (by simp)) writes
  have run := login.append (.cons ⟨running, started⟩ (.one ⟨rfl, ended⟩))
  refine ⟨_, _, run, ?_, descriptors_owned run (List.forall_mem_append.mpr ⟨meets, ?_⟩)⟩
  · exact ⟨_, List.mem_append_right _ (List.mem_cons_of_mem _ List.mem_cons_self), _,
      List.mem_cons_self, _, _, rfl⟩
  · have open_ : (v.transfers 0).upload = some (ascii "1") := rfl
    refine List.forall_mem_cons.mpr ⟨fun _ _ _ => trivial, List.forall_mem_cons.mpr
      ⟨fun after hafter _ => ?_, by simp⟩⟩
    cases hlive'.symm.trans hafter
    exact open_

end Runs

end ConcurrentTcp
