import ConcurrentTcp.Server.State
import Mathlib.Data.List.Infix

/-!
Paths and files (`server/io.hpp`).

`ssplit` and `sjoin` split and join at a delimiter; `cdCommand` computes a new
working directory; `isValidFilename` and `isPathWithinUserDir` are the two checks
that guard file operations.
-/

namespace ConcurrentTcp

open Interaction

/-! ### Splitting and joining -/

/-- `ssplit`: `std::getline` until it fails. A final empty token is not read. -/
def ssplit (str : Str) (delimiter : UInt8) : List Str :=
  let tokens := str.splitOn delimiter
  if tokens.getLast? = some [] then tokens.dropLast else tokens

/-- `sjoin` -/
def sjoin (tokens : List Str) (delimiter : UInt8) : Str :=
  [delimiter].intercalate tokens

/-! ### Working directory -/

/-- The loop of `cd_command` over the parts of the destination. -/
def cdParts (pathParts : List Str) : List Str → ServerProg Str
  | [] => .ret (sjoin pathParts slash)
  | part :: rest =>
      if part = ascii ".." then
        -- The first three parts are "./tmp/USERID".
        cdParts (if pathParts.length > 3 then pathParts.dropLast else pathParts) rest
      else if part ≠ [] ∧ part ≠ ascii "." then do
        let newPath := sjoin (pathParts ++ [part]) slash
        let found ← orThrow (← sys (.pathExists newPath))
        if !found then .ret []
        else
          let directory ← orThrow (← sys (.isDirectory newPath))
          if !directory then .ret []
          else cdParts (pathParts ++ [part]) rest
      else cdParts pathParts rest

/-- `cd_command`: the empty string is failure. -/
def cdCommand (currentPath destination : Str) : ServerProg Str :=
  cdParts (ssplit currentPath slash) (ssplit destination slash)

/-! ### Directory listing -/

/-- The `readdir` loop of `write_user_file_list`. -/
def writeFileNames (p : Buffer) (count : Nat) : List Str → Buffer × Nat
  | [] => (p, count)
  | name :: rest =>
      if count < maxFiles then
        if name = ascii "." ∨ name = ascii ".." then writeFileNames p count rest
        else
          let off := 5 + maxFilenameLen * count
          let p := p.write off (strncpy name maxFilenameLen)
          writeFileNames (p.write (off + maxFilenameLen - 1) [0]) (count + 1) rest
      else (p, count)

/-- `write_user_file_list` -/
def writeUserFileList (usersDir : Str) (p : Buffer) : ServerProg Buffer := do
  match ← sys (.opendir usersDir) with
  | none => .ret (p.write 4 [0])
  | some names =>
      let (p, count) := writeFileNames p 0 names
      .ret (p.write 4 [UInt8.ofNat count])

/-! ### Checks on names and paths -/

/-- `is_valid_filename` -/
def isValidFilename (filePath : Str) : Bool :=
  !(decide (ascii "../" <:+: filePath) || decide (slash ∈ filePath) || decide (92 ∈ filePath))

/-- `does_file_exist` -/
def doesFileExist (fileName : Str) : ServerProg Bool := do
  orThrow (← sys (.pathExists fileName))

/-- `remove_file` -/
def removeFile (fileName : Str) : ServerProg Bool :=
  sys (.remove fileName)

/-- `remove_directory` -/
def removeDirectory (directoryName : Str) : ServerProg Bool := do
  let removed ← orThrow (← sys (.removeAll directoryName))
  .ret (removed > 0)

/-- The comparison of `is_path_within_user_dir`: `find` returns 0 exactly for a
prefix. -/
def isWithin (canonicalPath canonicalUserDir : FsPath) : Bool :=
  canonicalUserDir.string.isPrefixOf canonicalPath.string

/-- `is_path_within_user_dir` -/
def isPathWithinUserDir (path userDir : Str) : ServerProg Bool := do
  let canonicalPath ← orThrow (← sys (.weaklyCanonical path))
  let canonicalUserDir ← orThrow (← sys (.weaklyCanonical userDir))
  .ret (isWithin canonicalPath canonicalUserDir)

/-- `move_file`: the exception of `rename` is caught here. -/
def moveFile (source destination : Str) : ServerProg Bool := do
  match ← sys (.rename source destination) with
  | .ok () => .ret true
  | .error _ => .ret false

end ConcurrentTcp
