import ConcurrentTcp.Base.Interaction
import ConcurrentTcp.Client.PacketController

/-!
Downloads and the send loop of the client (`client/menu.hpp`, `client/main.cpp`).

The client is a program over its own calls. Those it makes to the operating system
on its files are the same as the server's; `send` and `recv` are on its connection.
-/

namespace ConcurrentTcp

open Interaction

/-! ### Calls -/

/-- `openFile` may create the file; `recv` is `recv_from_server`. -/
inductive ClientCall where
  | openFile (path : Str)
  | send (bytes : List UInt8)
  | recv
  | write (fd : Int) (data : Buffer) (count : Nat)
  | close (fd : Int)

/-- `send` answers whether it did not fail, `recv` with the bytes it stored. -/
def ClientCall.Answer : ClientCall → Type
  | .openFile _ => Int
  | .send _ => Bool
  | .recv => List UInt8
  | .write _ _ _ => Int
  | .close _ => Int

abbrev ClientProg := Prog ClientCall ClientCall.Answer Fault

abbrev ClientEvent := Event ClientCall ClientCall.Answer

def clientCall (call : ClientCall) : ClientProg call.Answer := Prog.ask call

theorem exec_clientCall_iff {α : Type} {call : ClientCall} {f : call.Answer → ClientProg α}
    {events : List ClientEvent} {out : Except Fault α} :
    Exec (clientCall call >>= f) events out ↔
      ∃ ans rest, events = ⟨call, ans⟩ :: rest ∧ Exec (f ans) rest out :=
  Exec.call_iff

/-! ### Download -/

/-- The `PacketDownloadChunk` of the download loop. -/
def downloadChunkRequest (junk : Buffer) (chunk : Nat) : Buffer :=
  (junk.setHeader .reqFileDownloadChunk sizeofPacketDownloadChunk).write 8 (le64 chunk)

/-- `resp.header.total_size - sizeof(PacketHeader)` in `size_t`. -/
def responseLength (receiveBuffer : Buffer) : Nat :=
  (receiveBuffer.totalSize + 2 ^ 64 - sizeofPacketHeader) % 2 ^ 64

/-- The loop of `handle_file_opened_resp` from `chunk` on. The test of the source is
`chunk != p.chunks`, so it makes as many rounds as are left. -/
def downloadChunks (junk : Nat → Buffer) (file : Int) (receiveBuffer : Buffer) (chunk : Nat) :
    (left : Nat) → ClientProg Unit
  | 0 => .ret ()
  | left + 1 => do
      let sent : Bool ← clientCall (.send (downloadChunkRequest (junk chunk) chunk).frame)
      if !sent then .ret ()
      else
        let frame : List UInt8 ← clientCall .recv
        let receiveBuffer := receiveBuffer.write 0 frame
        let fileData : Buffer := fun i => receiveBuffer (sizeofPacketHeader + i)
        let _ ← clientCall (.write file fileData (responseLength receiveBuffer))
        downloadChunks junk file receiveBuffer (chunk + 1) left

/-- `handle_file_opened_resp` of the packet at the front of `p`. -/
def handleFileOpenedResp (junk : Nat → Buffer) (p : Buffer) : ClientProg Unit :=
  match PacketDownloadedFileInfo.decodeFileName p with
  | none => .fail .undefinedBehaviour
  | some fileName => do
      let file : Int ← clientCall (.openFile fileName)
      downloadChunks junk file Buffer.zero 0 (PacketDownloadedFileInfo.decodeChunks p)
      let _ ← clientCall (.close file)
      .ret ()

/-! ### The send loop -/

/-- `Menu::handle_response_packet`: whether the response is an error. What is printed
is left out. -/
def handleResponsePacket (junk : Nat → Buffer) (buffer : Buffer) : ClientProg Bool :=
  match PacketType.ofByte? buffer.command with
  | some .respFileOpened => do
      handleFileOpenedResp junk buffer
      .ret false
  | some .respRequiresAdmin | some .respNotLoggedIn | some .respBadLogin | some .respIoError =>
      .ret true
  | _ => .ret false

section Responses

variable (junk : Nat → Buffer) {p : Buffer}

theorem handleResponsePacket_opened (h : p.command = PacketType.respFileOpened.toByte) :
    handleResponsePacket junk p = handleFileOpenedResp junk p >>= fun _ => .ret false := by
  unfold handleResponsePacket
  rw [h, PacketType.ofByte?_toByte]

end Responses

/-- The loop of `main` over the packets of one command. -/
def sendPackets (junk : Nat → Buffer) (receiveBuffer : Buffer) : List Buffer → ClientProg Unit
  | [] => .ret ()
  | packet :: rest => do
      let sent : Bool ← clientCall (.send packet.frame)
      if !sent then .ret ()
      else
        let frame : List UInt8 ← clientCall .recv
        let receiveBuffer := receiveBuffer.write 0 frame
        let stop ← handleResponsePacket junk receiveBuffer
        if stop then .ret () else sendPackets junk receiveBuffer rest

end ConcurrentTcp
