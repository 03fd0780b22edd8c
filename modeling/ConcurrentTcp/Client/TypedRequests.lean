import ConcurrentTcp.Client.Commands
import ConcurrentTcp.Server.FieldReads
import ConcurrentTcp.Server.Storage

/-!
Requests from the line to the handler.

A command with its arguments becomes a packet, and the handler reads the fields of what
arrives of it. Both know the same structures; but the client copies an argument of any
length, so `typed_request_iff` holds exactly for arguments that are shorter than their
fields.
-/

namespace ConcurrentTcp

/-! ### Commands with arguments -/

/-- What the user asks for. -/
inductive UserRequest where
  | login (username password : Str)
  | mkdir (path : Str)
  | rm (path : Str)
  | cd (path : Str)
  | download (path : Str)
  | mv (path1 path2 : Str)
  | cp (path1 path2 : Str)
deriving DecidableEq, Repr

namespace UserRequest

/-- The lines that ask for it. One path is the rest of the line, several arguments are
separated by spaces. -/
def Typed : UserRequest → Str → Prop
  | login username password, line => ∃ rest more, line = ascii "login " ++ rest ∧
      strtok rest = username :: password :: more
  | mkdir path, line => path ≠ [] ∧ line = ascii "mkdir " ++ path
  | rm path, line => path ≠ [] ∧ line = ascii "rm " ++ path
  | cd path, line => path ≠ [] ∧ line = ascii "cd " ++ path
  | download path, line => path ≠ [] ∧ line = ascii "download " ++ path
  | mv path1 path2, line => ∃ rest more, line = ascii "mv " ++ rest ∧
      strtok rest = path1 :: path2 :: more
  | cp path1 path2, line => ∃ rest more, line = ascii "cp " ++ rest ∧
      strtok rest = path1 :: path2 :: more

def packetType : UserRequest → PacketType
  | login _ _ => .reqLogin
  | mkdir _ => .reqMkdir
  | rm _ => .reqRemovePath
  | cd _ => .reqChangeWorkingDirectory
  | download _ => .reqFileOpen
  | mv _ _ => .reqMoveFile
  | cp _ _ => .reqCopyFile

/-- The arguments, each with the field that is for it. -/
def arguments : UserRequest → List (Field × Str)
  | login username password => [(.username, username), (.password, password)]
  | mkdir path | rm path | cd path => [(.path, path)]
  | download path => [(.downloadPath, path)]
  | mv path1 path2 | cp path1 path2 => [(.firstPath, path1), (.secondPath, path2)]

/-- The handler reads the argument, and stays in the field. -/
def ReadsField (b : Buffer) (argument : Field × Str) : Prop :=
  argument.1.decode b = some argument.2 ∧ argument.1.Terminated b

/-- The server gets the request: the handler of its type reads what was typed. -/
def Received (request : UserRequest) (cb : ConnectionBuffer) : Prop :=
  cb.buffer.command = request.packetType.toByte ∧
    ∀ argument ∈ request.arguments, ReadsField cb.buffer argument

/-- The client refuses, or what it sends is the request. -/
def Decodes (request : UserRequest) (c : ConnId) (result : Except Fault (Option (List Buffer))) :
    Prop :=
  result = .ok none ∨
    ∃ packet, result = .ok (some [packet]) ∧ request.Received ⟨c, packet.frame⟩

/-- Every argument is shorter than its field. -/
def Fits (request : UserRequest) : Prop :=
  ∀ argument ∈ request.arguments, argument.2.length < argument.1.length

/-- The packet of the client. -/
def packet (junk : Buffer) : UserRequest → Buffer
  | login username password => PacketController.createLoginPacket junk username password
  | mkdir path => PacketController.createMkdirPacket junk path
  | rm path => PacketController.createRemovePathPacket junk path
  | cd path => PacketController.createChangeWdPacket junk path
  | download path => createDownloadFilePacket junk path
  | mv path1 path2 => PacketController.createMvPacket junk path1 path2
  | cp path1 path2 => PacketController.createCpPacket junk path1 path2

end UserRequest

/-! ### Parsing -/

section Parsing

variable {junk : Nat → Nat → Buffer} {readEntireFile : Str → Option (List UInt8)}
  {input : Buffer} {line : Str} {request : UserRequest}

open UserRequest

/-- Words that begin otherwise than the line. -/
def Apart (front : Str) (words : List String) : Prop :=
  ∀ word ∈ words, 0 ∉ ascii word ∧ ¬ (ascii word <+: front ∨ front <+: ascii word)

instance (front : Str) (words : List String) : Decidable (Apart front words) :=
  List.decidableBAll _ words

theorem HoldsLine.startsWith_front {front rest : Str} (h : HoldsLine input (front ++ rest))
    {words : List String} (apart : Apart front words) :
    ∀ word ∈ words, startsWith input word = false :=
  fun word hword => h.not_startsWith (apart word hword).1 (apart word hword).2

theorem HoldsLine.startsWith_word {front rest : Str} (h : HoldsLine input (front ++ rest))
    {word : String} (hzero : 0 ∉ ascii word) (hword : ascii word <+: front) :
    startsWith input word = true :=
  (h.startsWith_iff hzero).mpr (hword.trans (List.prefix_append front rest))

/-- A command word with a space, and what follows it. -/
theorem HoldsLine.argument {front rest : Str} (h : HoldsLine input (front ++ rest)) :
    stringAt input front.length = .ok rest := by
  rw [h.stringAt_eq (by simp), List.drop_left]

theorem parse_download {path : Str} (h : HoldsLine input (ascii "download " ++ path)) :
    parseCommandToPackets junk readEntireFile input =
      .ok (some [createDownloadFilePacket (junk 0 0) path]) := by
  have others : ∀ word ∈ ["status", "cwd"], startsWith input word = false :=
    h.startsWith_front (by decide)
  have word : startsWith input "download" = true := h.startsWith_word (by decide) (by decide)
  have argument : stringAt input 9 = .ok path := h.argument
  simp only [List.forall_mem_cons] at others
  simp [parseCommandToPackets, others, word, argument]

theorem parse_rm {path : Str} (h : HoldsLine input (ascii "rm " ++ path)) :
    parseCommandToPackets junk readEntireFile input =
      .ok (some [PacketController.createRemovePathPacket (junk 0 0) path]) := by
  have others : ∀ word ∈ ["status", "cwd", "download"], startsWith input word = false :=
    h.startsWith_front (by decide)
  have word : startsWith input "rm" = true := h.startsWith_word (by decide) (by decide)
  have argument : stringAt input 3 = .ok path := h.argument
  simp only [List.forall_mem_cons] at others
  simp [parseCommandToPackets, others, word, argument]

theorem parse_mkdir {path : Str} (h : HoldsLine input (ascii "mkdir " ++ path)) :
    parseCommandToPackets junk readEntireFile input =
      .ok (some [PacketController.createMkdirPacket (junk 0 0) path]) := by
  have others : ∀ word ∈ ["status", "cwd", "download", "rm"], startsWith input word = false :=
    h.startsWith_front (by decide)
  have word : startsWith input "mkdir" = true := h.startsWith_word (by decide) (by decide)
  have argument : stringAt input 6 = .ok path := h.argument
  simp only [List.forall_mem_cons] at others
  simp [parseCommandToPackets, others, word, argument]

theorem parse_cd {path : Str} (h : HoldsLine input (ascii "cd " ++ path)) :
    parseCommandToPackets junk readEntireFile input =
      .ok (some [PacketController.createChangeWdPacket (junk 0 0) path]) := by
  have others : ∀ word ∈ ["status", "cwd", "download", "rm", "mkdir", "compress"],
      startsWith input word = false := h.startsWith_front (by decide)
  have word : startsWith input "cd" = true := h.startsWith_word (by decide) (by decide)
  have argument : stringAt input 3 = .ok path := h.argument
  simp only [List.forall_mem_cons] at others
  simp [parseCommandToPackets, others, word, argument]

/-- `mv` and `cp` take the word of the command for the first token. -/
theorem parse_mv {path1 path2 rest : Str} {more : List Str}
    (h : HoldsLine input (ascii "mv " ++ rest)) (tokens : strtok rest = path1 :: path2 :: more) :
    parseCommandToPackets junk readEntireFile input =
      .ok (some [PacketController.createMvPacket (junk 0 0) path1 path2]) := by
  have others : ∀ word ∈ ["status", "cwd", "download", "rm", "mkdir", "compress", "cd"],
      startsWith input word = false := h.startsWith_front (by decide)
  have word : startsWith input "mv" = true := h.startsWith_word (by decide) (by decide)
  have line : stringAt input 0 = .ok (ascii "mv" ++ 32 :: rest) := h.stringAt_eq (Nat.zero_le _)
  have command : strtok (ascii "mv") = [ascii "mv"] := by decide
  have arguments : twoTokens (strtok (ascii "mv" ++ 32 :: rest)).tail = .ok (path1, path2) := by
    rw [strtok_append, command, tokens]
    rfl
  simp only [List.forall_mem_cons] at others
  simp [parseCommandToPackets, others, word, line, arguments, bind, Except.bind, pure,
    Except.pure]

theorem parse_cp {path1 path2 rest : Str} {more : List Str}
    (h : HoldsLine input (ascii "cp " ++ rest)) (tokens : strtok rest = path1 :: path2 :: more) :
    parseCommandToPackets junk readEntireFile input =
      .ok (some [PacketController.createCpPacket (junk 0 0) path1 path2]) := by
  have others : ∀ word ∈ ["status", "cwd", "download", "rm", "mkdir", "compress", "cd", "mv"],
      startsWith input word = false := h.startsWith_front (by decide)
  have word : startsWith input "cp" = true := h.startsWith_word (by decide) (by decide)
  have line : stringAt input 0 = .ok (ascii "cp" ++ 32 :: rest) := h.stringAt_eq (Nat.zero_le _)
  have command : strtok (ascii "cp") = [ascii "cp"] := by decide
  have arguments : twoTokens (strtok (ascii "cp" ++ 32 :: rest)).tail = .ok (path1, path2) := by
    rw [strtok_append, command, tokens]
    rfl
  simp only [List.forall_mem_cons] at others
  simp [parseCommandToPackets, others, word, line, arguments, bind, Except.bind, pure,
    Except.pure]

theorem parse_login {username password rest : Str} {more : List Str}
    (h : HoldsLine input (ascii "login " ++ rest))
    (tokens : strtok rest = username :: password :: more) :
    parseCommandToPackets junk readEntireFile input =
      .ok (some [PacketController.createLoginPacket (junk 0 0) username password]) := by
  have others : ∀ word ∈ ["status", "cwd", "download", "rm", "mkdir", "compress", "cd", "mv",
      "cp", "help", "admin_help", "getid", "logout", "connections", "clean", "ping",
      "get_settings", "set"], startsWith input word = false := h.startsWith_front (by decide)
  have word : startsWith input "login" = true := h.startsWith_word (by decide) (by decide)
  have argument : stringAt input 6 = .ok rest := h.argument
  have arguments : twoTokens (strtok rest) = .ok (username, password) := by
    rw [tokens]
    rfl
  simp only [List.forall_mem_cons] at others
  simp [parseCommandToPackets, others, word, argument, arguments, bind, Except.bind, pure,
    Except.pure]

/-- The client refuses no request. -/
theorem parse_typed (h : HoldsLine input line) (typed : request.Typed line) :
    parseCommandToPackets junk readEntireFile input =
      .ok (some [request.packet (junk 0 0)]) := by
  cases request with
  | login username password =>
      obtain ⟨rest, more, rfl, tokens⟩ := typed
      exact parse_login h tokens
  | mkdir path =>
      obtain ⟨-, rfl⟩ := typed
      exact parse_mkdir h
  | rm path =>
      obtain ⟨-, rfl⟩ := typed
      exact parse_rm h
  | cd path =>
      obtain ⟨-, rfl⟩ := typed
      exact parse_cd h
  | download path =>
      obtain ⟨-, rfl⟩ := typed
      exact parse_download h
  | mv path1 path2 =>
      obtain ⟨rest, more, rfl, tokens⟩ := typed
      exact parse_mv h tokens
  | cp path1 path2 =>
      obtain ⟨rest, more, rfl, tokens⟩ := typed
      exact parse_cp h tokens

end Parsing

/-! ### Fields -/

section Fields

open UserRequest

variable {f : Field} {b : Buffer} {s path : Str} {request : UserRequest} {line : Str}

/-- The terminator in the field is the one at which the handler stops. -/
theorem readsField_iff (h : f.Exists) :
    ReadsField b (f, s) ↔ b.cString f.offset f.length = some s := by
  have hobject : f.length ≤ f.objectSize - f.offset := by
    have hend := Field.offset_add_length_le h
    omega
  constructor
  · rintro ⟨hread, -, hterminated⟩
    obtain ⟨t, ht⟩ := Option.isSome_iff_exists.mp hterminated
    have heq : some t = some s := (Buffer.cString_mono hobject ht).symm.trans hread
    rwa [heq] at ht
  · intro hfield
    exact ⟨Buffer.cString_mono hobject hfield, h, by rw [hfield]; rfl⟩

/-- The field of a packet, when the header is set last. -/
theorem cString_createPathPacket (command : PacketType) (size : Nat) (junk : Buffer) (len : Nat)
    (hpath : 0 ∉ path) :
    (createPathPacket command size junk path).cString 4 len = some path ↔ path.length < len := by
  rw [createPathPacket, Buffer.cString_setHeader _ _ _ _ (Nat.le_refl 4),
    Buffer.cString_write_iff _ _ hpath]

namespace PacketController

variable {path1 path2 username password : Str}

theorem cString_createTwoPathsPacket (command : PacketType) (junk : Buffer) (hpath1 : 0 ∉ path1)
    (hpath2 : 0 ∉ path2) :
    ((createTwoPathsPacket command junk path1 path2).cString 4 512 = some path1 ↔
        path1.length < 512) ∧
      ((createTwoPathsPacket command junk path1 path2).cString 516 512 = some path2 ↔
        path2.length < 512) := by
  constructor
  · -- The second path is stored behind the first field, and cannot end it.
    rw [createTwoPathsPacket, Buffer.cString_setHeader _ _ _ _ (Nat.le_refl 4),
      Buffer.cString_write_of_le _ _ _ (by decide), Buffer.cString_write_iff _ _ hpath1]
  · rw [createTwoPathsPacket, Buffer.cString_setHeader _ _ _ _ (by decide),
      Buffer.cString_write_iff _ _ hpath2]

theorem cString_createLoginPacket (junk : Buffer) (husername : 0 ∉ username)
    (hpassword : 0 ∉ password) :
    ((createLoginPacket junk username password).cString 4 64 = some username ↔
        username.length < 64) ∧
      ((createLoginPacket junk username password).cString 68 64 = some password ↔
        password.length < 64) := by
  constructor
  · rw [createLoginPacket, Buffer.cString_write_of_le _ _ _ (by decide),
      Buffer.cString_write_iff _ _ husername]
  · rw [createLoginPacket, Buffer.cString_write_iff _ _ hpassword]

end PacketController

namespace UserRequest

/-- The structure that is sent. -/
def size : UserRequest → Nat
  | login _ _ => sizeofPacketLogin
  | mkdir _ | rm _ | cd _ => sizeofPacketCurrentDirectory
  | download _ => sizeofPacketDownloadFile
  | mv _ _ | cp _ _ => sizeofPacketMoveFile

theorem header_le_size (request : UserRequest) : sizeofPacketHeader ≤ request.size := by
  cases request <;> simp [size, sizeofPacketHeader, sizeofPacketLogin,
    sizeofPacketCurrentDirectory, sizeofPacketDownloadFile, sizeofPacketMoveFile]

theorem totalSize_packet (request : UserRequest) (junk : Buffer) :
    (request.packet junk).totalSize = request.size := by
  cases request with
  | login username password =>
      rw [packet, PacketController.createLoginPacket, Buffer.totalSize_write _ (by decide),
        Buffer.totalSize_write _ (Nat.le_refl 4), Buffer.totalSize_setHeader]
      rfl
  | mkdir path | rm path | cd path | download path | mv path1 path2 | cp path1 path2 =>
      exact Buffer.totalSize_setHeader ..

/-- A packet holds its type. -/
theorem command_packet (request : UserRequest) (junk : Buffer) :
    (request.packet junk).command = request.packetType.toByte := by
  cases request with
  | login username password =>
      rw [packet, PacketController.createLoginPacket, Buffer.command_write _ (by decide),
        Buffer.command_write _ (Nat.le_refl 4), Buffer.command_setHeader]
      rfl
  | mkdir path | rm path | cd path | download path | mv path1 path2 | cp path1 path2 =>
      exact Buffer.command_setHeader ..

/-- The fields of the arguments are in the structure. -/
theorem field_le_size : ∀ argument ∈ request.arguments,
    argument.1.Exists ∧ argument.1.offset + argument.1.length ≤ request.size := by
  cases request <;> simp [arguments, Field.Exists, Field.offset, Field.length, size,
    sizeofPacketLogin, sizeofPacketCurrentDirectory, sizeofPacketDownloadFile,
    sizeofPacketMoveFile]

/-- What the client stores in a field is the argument when it is shorter. -/
theorem cString_packet (junk : Buffer) (noNul : ∀ argument ∈ request.arguments, 0 ∉ argument.2) :
    ∀ argument ∈ request.arguments,
      ((request.packet junk).cString argument.1.offset argument.1.length = some argument.2 ↔
        argument.2.length < argument.1.length) := by
  cases request with
  | login username password =>
      simp only [arguments, List.forall_mem_cons] at noNul ⊢
      obtain ⟨first, second⟩ :=
        PacketController.cString_createLoginPacket junk noNul.1 noNul.2.1
      exact ⟨first, second, nofun⟩
  | mkdir path | rm path | cd path | download path =>
      simp only [arguments, List.forall_mem_cons] at noNul ⊢
      exact ⟨cString_createPathPacket _ _ junk _ noNul.1, nofun⟩
  | mv path1 path2 | cp path1 path2 =>
      simp only [arguments, List.forall_mem_cons] at noNul ⊢
      have fields (command : PacketType) :=
        PacketController.cString_createTwoPathsPacket command junk noNul.1 noNul.2.1
      exact ⟨(fields _).1, (fields _).2, nofun⟩

/-- The server gets the request exactly when every argument is shorter than its field. -/
theorem received_packet_iff (c : ConnId) (junk : Buffer)
    (noNul : ∀ argument ∈ request.arguments, 0 ∉ argument.2) :
    request.Received ⟨c, (request.packet junk).frame⟩ ↔ request.Fits := by
  have header : 4 ≤ (request.packet junk).totalSize := by
    rw [totalSize_packet]
    exact header_le_size request
  have command : (ConnectionBuffer.buffer ⟨c, (request.packet junk).frame⟩).command =
      request.packetType.toByte := (command_frame header).trans (command_packet request junk)
  have reads : ∀ argument ∈ request.arguments,
      (ReadsField (ConnectionBuffer.buffer ⟨c, (request.packet junk).frame⟩) argument ↔
        argument.2.length < argument.1.length) := by
    intro argument hargument
    obtain ⟨hexists, hend⟩ := field_le_size argument hargument
    rw [← totalSize_packet request junk] at hend
    rw [← cString_packet junk noNul argument hargument, ← cString_frame (c := c) hend]
    exact readsField_iff hexists
  constructor
  · rintro ⟨-, hreads⟩ argument hargument
    exact (reads argument hargument).mp (hreads argument hargument)
  · intro fits
    exact ⟨command, fun argument hargument =>
      (reads argument hargument).mpr (fits argument hargument)⟩

/-- What is typed has no NUL. -/
theorem Typed.noNul (typed : request.Typed line) (hline : 0 ∉ line) :
    ∀ argument ∈ request.arguments, 0 ∉ argument.2 := by
  cases request with
  | mkdir path | rm path | cd path | download path =>
      obtain ⟨-, rfl⟩ := typed
      simp only [arguments, List.forall_mem_cons]
      exact ⟨fun hzero => hline (List.mem_append_right _ hzero), nofun⟩
  | login first second | mv first second | cp first second =>
      obtain ⟨rest, more, rfl, tokens⟩ := typed
      have token : ∀ word ∈ strtok rest, 0 ∉ word := fun word hword hzero =>
        hline (List.mem_append_right _ (mem_of_mem_strtok hword hzero))
      simp only [tokens, List.forall_mem_cons] at token
      simp only [arguments, List.forall_mem_cons]
      exact ⟨token.1, token.2.1, nofun⟩

end UserRequest

end Fields

open UserRequest in
/-- Requests decode to what the user asked for, exactly when every argument is shorter than
its field: the client never refuses, and stores all of an argument. -/
theorem typed_request_iff (junk : Nat → Nat → Buffer)
    (readEntireFile : Str → Option (List UInt8)) (c : ConnId) {input : Buffer} {line : Str}
    {request : UserRequest} (h : HoldsLine input line) (typed : request.Typed line) :
    request.Decodes c (parseCommandToPackets junk readEntireFile input) ↔ request.Fits := by
  rw [parse_typed h typed, ← received_packet_iff c (junk 0 0) (typed.noNul h.noNul)]
  constructor
  · rintro (hrefused | ⟨packet, hpacket, received⟩)
    · cases hrefused
    · cases hpacket
      exact received
  · intro received
    exact .inr ⟨_, rfl, received⟩

/-! ### Short and long arguments -/

/-- An array with nothing behind its line. -/
def lineBuffer (line : Str) : Buffer := fun i => (line ++ [0]).getD i 0

theorem holdsLine_lineBuffer {line : Str} (noNul : 0 ∉ line) (fits : line.length < sizeofInput) :
    HoldsLine (lineBuffer line) line where
  noNul := noNul
  fits := fits
  stored := by
    apply List.ext_getElem?
    intro i
    rcases Nat.lt_or_ge i (line.length + 1) with hi | hi
    · have hlength : i < (line ++ [0]).length := by simpa using hi
      rw [Buffer.getElem?_read _ _ hi, Nat.zero_add, lineBuffer,
        List.getD_eq_getElem _ _ hlength, List.getElem?_eq_getElem hlength]
    · rw [List.getElem?_eq_none (by simpa using hi), List.getElem?_eq_none (by simpa using hi)]

theorem typed_login_alice :
    (UserRequest.login (ascii "alice") (ascii "pw")).Decodes 0
        (parseCommandToPackets (fun _ _ => Buffer.zero) (fun _ => none)
          (lineBuffer (ascii "login alice pw"))) ↔
      (UserRequest.login (ascii "alice") (ascii "pw")).Fits :=
  typed_request_iff _ _ _ (holdsLine_lineBuffer (by decide) (by decide))
    ⟨ascii "alice pw", [], by decide, by decide⟩

/-- A name of 64 characters. -/
def longName : Str := List.replicate 64 97

/-- The long name takes its whole field: the password ends up behind it. -/
theorem long_username_not_decoded :
    HoldsLine (lineBuffer (ascii "login " ++ longName ++ ascii " pw"))
        (ascii "login " ++ longName ++ ascii " pw") ∧
      (UserRequest.login longName (ascii "pw")).Typed
        (ascii "login " ++ longName ++ ascii " pw") ∧
      ¬ (UserRequest.login longName (ascii "pw")).Decodes 0
        (parseCommandToPackets (fun _ _ => Buffer.zero) (fun _ => none)
          (lineBuffer (ascii "login " ++ longName ++ ascii " pw"))) := by
  have holds : HoldsLine (lineBuffer (ascii "login " ++ longName ++ ascii " pw"))
      (ascii "login " ++ longName ++ ascii " pw") :=
    holdsLine_lineBuffer (by decide) (by decide)
  have typed : (UserRequest.login longName (ascii "pw")).Typed
      (ascii "login " ++ longName ++ ascii " pw") :=
    ⟨longName ++ ascii " pw", [], by decide, by decide⟩
  refine ⟨holds, typed, ?_⟩
  rw [parse_typed holds typed]
  rintro (hrefused | ⟨packet, hpacket, received⟩)
  · cases hrefused
  · cases hpacket
    have fits := (UserRequest.received_packet_iff 0 _ (typed.noNul holds.noNul)).mp received
    have hlength : longName.length < 64 := fits (.username, longName) List.mem_cons_self
    rw [longName, List.length_replicate] at hlength
    exact absurd hlength (by decide)

end ConcurrentTcp
