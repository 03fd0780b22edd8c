import ConcurrentTcp.Base.Interaction
import ConcurrentTcp.Common.FsPath
import ConcurrentTcp.Common.Packets

/-!
Server state and the calls its handlers make (`server/connection.hpp`,
`server/state.hpp`).

A `ConnectionWrapper` is split into the `Session` its handlers read and write
and the receive buffer the server thread fills. A handler is a program over
`SysCall`: operating-system and library calls, each with the answer type the C
or C++ function has. A call that can throw answers with an `Except`; an
exception that leaves a handler, a call through an empty `std::function` and
undefined behaviour are faults; running out of fuel cuts a loop short.
-/

namespace ConcurrentTcp

open Interaction

/-! ### Connections -/

/-- Identity of a `ConnectionWrapper` object. -/
abbrev ConnId := Nat

/-- The fields of `ConnectionWrapper` the handlers use. -/
structure Session where
  socketFd : Int
  currentDir : Str
  isAdmin : Bool
  fd : Int
  downloadFd : Int
  id : Str
deriving DecidableEq, Repr

/-- `std::make_shared<ConnectionWrapper>(client_socket_fd)`: the other members
are value-initialised. -/
def Session.accepted (socketFd : Int) : Session :=
  { socketFd, currentDir := [], isAdmin := false, fd := 0, downloadFd := 0, id := [] }

structure ConnectionWrapper extends Session where
  buffer : Buffer
  bufferPos : Nat

def ConnectionWrapper.accepted (socketFd : Int) : ConnectionWrapper :=
  { Session.accepted socketFd with buffer := Buffer.zero, bufferPos := 0 }

/-- `ConnectionBuffer`: an extracted packet. Its 65535-byte buffer is zero but
for the frame copied to its front. -/
structure ConnectionBuffer where
  connection : ConnId
  frame : List UInt8
deriving DecidableEq, Repr

def ConnectionBuffer.buffer (cb : ConnectionBuffer) : Buffer := fun i => cb.frame.getD i 0

/-- The members of `g_state` that handlers change. -/
structure GlobalState where
  bAdminConnected : Bool
  compressionLevel : UInt8
deriving DecidableEq, Repr

def GlobalState.initial : GlobalState := { bAdminConnected := false, compressionLevel := 1 }

/-! ### Calls -/

inductive FsError where
  | filesystemError
deriving DecidableEq, Repr

inductive Fault where
  | filesystemError
  | badFunctionCall
  | undefinedBehaviour
  | outOfFuel
deriving DecidableEq, Repr

inductive FopenMode where
  | rb | wb
deriving DecidableEq, Repr

/-- One `fread` of up to 8192 bytes; both `eof` and `error` return zero. -/
inductive FreadResult where
  | block (bytes : List UInt8)
  | eof
  | error
deriving DecidableEq, Repr

inductive LzmaAction where
  | run | finish
deriving DecidableEq, Repr

inductive LzmaRet where
  | ok | streamEnd | error
deriving DecidableEq, Repr

/-- What one `lzma_code` leaves: its result, `avail_in`, and the output. -/
structure LzmaStep where
  ret : LzmaRet
  availIn : Nat
  output : List UInt8
deriving DecidableEq, Repr

/-- Calls of the compression back ends to libarchive, stdio, zstd, zlib,
liblzma, lz4 and libzip. -/
inductive CompressionCall where
  | archiveWriteOpenFilename (path : Str)
  | fileSize (path : Str)
  | archiveWriteHeader (pathname : Str) (size : Nat)
  | archiveWriteData (bytes : List UInt8)
  | archiveWriteClose
  | fopen (path : Str) (mode : FopenMode)
  | fread (path : Str)
  | fwrite (path : Str) (bytes : List UInt8)
  | fclose (path : Str)
  | zstdCreateCCtx
  | zstdCompressCCtx (bytes : List UInt8) (level : Int)
  | gzdopen (path : Str)
  | gzsetparams (level : Int)
  | gzwrite (bytes : List UInt8)
  | gzclose
  | lzmaEasyEncoder (level : Int)
  | lzmaCode (action : LzmaAction) (input : List UInt8)
  | lz4CompressDefault (bytes : List UInt8)
  | zipOpen (path : Str)
  | zipSourceFile (path : Str)
  | zipFileAdd (path : Str)
  | zipSetFileCompression (level : Int)
  | zipClose

/-- A `Bool` answer is whether the call succeeded. -/
def CompressionCall.Answer : CompressionCall → Type
  | .fileSize _ => Except FsError Nat
  | .fread _ => FreadResult
  | .zstdCompressCCtx _ _ => Option (List UInt8)
  | .lzmaCode _ _ => LzmaStep
  | .lz4CompressDefault _ => Option (List UInt8)
  | _ => Bool

/-- Calls of the handlers. `write` names the memory it writes from, since its
count may exceed the bytes that are really there. -/
inductive SysCall where
  | send (bytes : List UInt8)
  | containerSizes
  | cpuUsage
  | memoryUsage
  | uptime
  | remove (path : Str)
  | removeAll (path : Str)
  | mkdir (path : Str)
  | pathExists (path : Str)
  | isDirectory (path : Str)
  | openFile (path : Str) (creat : Bool)
  | fstat (fd : Int)
  | lseek (fd : Int) (offset : Int)
  | read (fd : Int) (count : Nat)
  | write (fd : Int) (data : Buffer) (count : Nat)
  | close (fd : Int)
  | weaklyCanonical (path : Str)
  | rename (source destination : Str)
  | copyFile (source destination : Str)
  | opendir (path : Str)
  | directoryIterator (path : Str)
  | recursiveDirectoryIterator (path : Str)
  | compression (call : CompressionCall)

/-- An entry a directory iterator yields: the names below the directory it
started from, and whether it is of the kind the caller asks for. -/
structure DirEntry where
  names : List EntryName
  matching : Bool
  below : names ≠ []

/-- `remove` and `mkdir` answer whether they returned zero, `read` with the bytes
it stored (`none` for -1), `fstat` with the size. -/
def SysCall.Answer : SysCall → Type
  | .send _ => Unit
  | .containerSizes => Nat × Nat × Nat
  | .cpuUsage => UInt8
  | .memoryUsage => UInt64 × UInt64
  | .uptime => UInt64
  | .remove _ => Bool
  | .removeAll _ => Except FsError Nat
  | .mkdir _ => Bool
  | .pathExists _ => Except FsError Bool
  | .isDirectory _ => Except FsError Bool
  | .openFile _ _ => Int
  | .fstat _ => Option Nat
  | .lseek _ _ => Int
  | .read _ _ => Option (List UInt8)
  | .write _ _ _ => Int
  | .close _ => Int
  | .weaklyCanonical _ => Except FsError FsPath
  | .rename _ _ => Except FsError Unit
  | .copyFile _ _ => Except FsError Bool
  | .opendir _ => Option (List Str)
  | .directoryIterator _ => Except FsError (List DirEntry)
  | .recursiveDirectoryIterator _ => Except FsError (List DirEntry)
  | .compression call => call.Answer

/-- A program of the server. -/
abbrev ServerProg := Prog SysCall SysCall.Answer Fault

abbrev ServerEvent := Event SysCall SysCall.Answer

/-- Make one call. -/
def sys (call : SysCall) : ServerProg call.Answer := Prog.ask call

@[simp] theorem sys_bind {α : Type} (call : SysCall) (f : call.Answer → ServerProg α) :
    (sys call >>= f) = .call call f := rfl

/-- What a handler runs on: its connection, the global state, and the worker's
response buffer `tls_buffer`. -/
structure HandlerState where
  session : Session
  g : GlobalState
  tls : Buffer

/-- A throwing call of `std::filesystem`. -/
def orThrow {α : Type} : Except FsError α → ServerProg α
  | .ok a => .ret a
  | .error .filesystemError => .fail .filesystemError

/-- A value whose absence means undefined behaviour. -/
def orUndefined {α : Type} : Option α → ServerProg α
  | some a => .ret a
  | none => .fail .undefinedBehaviour

end ConcurrentTcp
