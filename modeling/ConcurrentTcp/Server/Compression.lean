import ConcurrentTcp.Server.Io

/-!
Archive creation (`server/compression_controller.hpp`).

Each back end writes a temporary tar file (zip excepted), compresses it block by
block into the output archive, and removes it. The read loops take fuel; every
library call is one call of the environment and its result is used exactly
where the source uses it.
-/

namespace ConcurrentTcp

open Interaction

/-- One call of a compression library or of stdio. -/
def lib (call : CompressionCall) : ServerProg call.Answer := sys (.compression call)

/-- `get_compression_level`; `none` is a byte without an enumerator. -/
def getCompressionLevel (level : Option Level) (format : Option Format) : Int :=
  match format with
  | some .zstd =>
      match level with
      | some .fastest => 1
      | some .fast => 3
      | some .normal => 6
      | some .good => 10
      | some .best => 19
      | none => 3
  | some .gzip =>
      match level with
      | some .fastest => 1
      | some .fast => 3
      | some .normal => -1
      | some .good => 7
      | some .best => 9
      | none => -1
  | some .xz | some .lzma =>
      match level with
      | some .fastest => 0
      | some .fast => 3
      | some .normal => 6
      | some .good => 7
      | some .best => 9
      | none => 6
  | some .lz4 =>
      match level with
      | some .fastest => 0
      | some .fast => 1
      | some .normal => 1
      | some .good => 1
      | some .best => 1
      | none => 1
  | some .zip =>
      match level with
      | some .fastest => 0
      | some .fast => 3
      | some .normal => 6
      | some .good => 7
      | some .best => 9
      | none => 6
  | none => 3

/-- `while((n = fread(...)) > 0) body`. The body answers whether to go on; the
result is whether the loop ran to its end. -/
def whileFread (path : Str) (body : List UInt8 → ServerProg Bool) : (fuel : Nat) → ServerProg Bool
  | 0 => .fail .outOfFuel
  | fuel + 1 => do
      match ← lib (.fread path) with
      | .block (b :: bs) =>
          let goOn ← body (b :: bs)
          if goOn then whileFread path body fuel else .ret false
      | _ => .ret true

/-- The loop body of `create_tar_archive` for one file. A file that does not open
is read through a null pointer. -/
def addTarEntry (fuel : Nat) (filePath : Str) : ServerProg Unit := do
  let size ← orThrow (← lib (.fileSize filePath))
  let _ ← lib (.archiveWriteHeader filePath size)
  let opened : Bool ← lib (.fopen filePath .rb)
  if !opened then .fail .undefinedBehaviour
  else
    let copyBlock := fun bytes => do
      let _ ← lib (.archiveWriteData bytes)
      .ret true
    let _ ← whileFread filePath copyBlock fuel
    let _ ← lib (.fclose filePath)
    .ret ()

/-- `create_tar_archive` -/
def createTarArchive (fuel : Nat) (files : List Str) (tarPath : Str) : ServerProg Bool := do
  let _ ← lib (.archiveWriteOpenFilename tarPath)
  files.foldlM (fun _ filePath => addTarEntry fuel filePath) ()
  let _ ← lib .archiveWriteClose
  .ret true

/-- Close the files in order. -/
def closeAll (paths : List Str) : ServerProg Unit :=
  paths.foldlM (fun _ path => do
    let _ ← lib (.fclose path)
    .ret ()) ()

/-- `compress_with_zstd` -/
def compressWithZstd (fuel : Nat) (files : List Str) (archiveBasePath : Str)
    (compressionLevel : Int) : ServerProg Bool := do
  let tarPath := archiveBasePath ++ ascii ".tar"
  let made ← createTarArchive fuel files tarPath
  if !made then .ret false
  else
    let archivePath := archiveBasePath ++ ascii ".tar.zst"
    let archiveFile : Bool ← lib (.fopen archivePath .wb)
    if !archiveFile then .ret false
    else
      let cctx : Bool ← lib .zstdCreateCCtx
      if !cctx then
        closeAll [archivePath]
        .ret false
      else
        let inputFile : Bool ← lib (.fopen tarPath .rb)
        if !inputFile then
          closeAll [archivePath]
          .ret false
        else
          let compressBlock := fun bytes => do
            match ← lib (.zstdCompressCCtx bytes compressionLevel) with
            | some out =>
                let _ ← lib (.fwrite archivePath out)
                .ret true
            | none => .ret false
          let finished ← whileFread tarPath compressBlock fuel
          closeAll [tarPath, archivePath]
          if !finished then .ret false
          else
            let _ ← sys (.remove tarPath)
            .ret true

/-- `compress_with_gzip` -/
def compressWithGzip (fuel : Nat) (files : List Str) (archiveBasePath : Str)
    (compressionLevel : Int) : ServerProg Bool := do
  let tarPath := archiveBasePath ++ ascii ".tar"
  let made ← createTarArchive fuel files tarPath
  if !made then .ret false
  else
    let archivePath := archiveBasePath ++ ascii ".tar.gz"
    let archiveFile : Bool ← lib (.fopen archivePath .wb)
    if !archiveFile then .ret false
    else
      let gz : Bool ← lib (.gzdopen archivePath)
      if !gz then
        closeAll [archivePath]
        .ret false
      else
        let _ ← lib (.gzsetparams compressionLevel)
        let inputFile : Bool ← lib (.fopen tarPath .rb)
        if !inputFile then
          let _ ← lib .gzclose
          .ret false
        else
          let finished ← whileFread tarPath (fun bytes => lib (.gzwrite bytes)) fuel
          closeAll [tarPath]
          let _ ← lib .gzclose
          if !finished then .ret false
          else
            let _ ← sys (.remove tarPath)
            .ret true

/-- `while(strm.avail_in != 0)` of `compress_with_xz`. -/
def lzmaRun (archivePath : Str) (input : List UInt8) : (fuel : Nat) → ServerProg Bool
  | 0 => .fail .outOfFuel
  | fuel + 1 => do
      let step : LzmaStep ← lib (.lzmaCode .run input)
      if step.ret ≠ .ok then .ret false
      else
        let _ ← lib (.fwrite archivePath step.output)
        if step.availIn = 0 then .ret true
        else lzmaRun archivePath (input.drop (input.length - step.availIn)) fuel

/-- `while(ret == LZMA_OK)` of `compress_with_xz`: the result that ended it. -/
def lzmaFinish (archivePath : Str) : (fuel : Nat) → ServerProg LzmaRet
  | 0 => .fail .outOfFuel
  | fuel + 1 => do
      let step : LzmaStep ← lib (.lzmaCode .finish [])
      let _ ← lib (.fwrite archivePath step.output)
      if step.ret = .ok then lzmaFinish archivePath fuel else .ret step.ret

/-- `compress_with_xz` -/
def compressWithXz (fuel : Nat) (files : List Str) (archiveBasePath : Str)
    (compressionLevel : Int) : ServerProg Bool := do
  let tarPath := archiveBasePath ++ ascii ".tar"
  let made ← createTarArchive fuel files tarPath
  if !made then .ret false
  else
    let archivePath := archiveBasePath ++ ascii ".tar.xz"
    let archiveFile : Bool ← lib (.fopen archivePath .wb)
    if !archiveFile then .ret false
    else
      let encoder : Bool ← lib (.lzmaEasyEncoder compressionLevel)
      if !encoder then
        closeAll [archivePath]
        .ret false
      else
        let inputFile : Bool ← lib (.fopen tarPath .rb)
        if !inputFile then
          closeAll [archivePath]
          .ret false
        else
          let finished ← whileFread tarPath (fun bytes => lzmaRun archivePath bytes fuel) fuel
          if !finished then
            closeAll [tarPath, archivePath]
            .ret false
          else
            closeAll [tarPath]
            let ret ← lzmaFinish archivePath fuel
            closeAll [archivePath]
            let _ ← sys (.remove tarPath)
            .ret (ret = .streamEnd)

/-- `compress_with_lz4`: the level is not used. -/
def compressWithLz4 (fuel : Nat) (files : List Str) (archiveBasePath : Str)
    (_compressionLevel : Int) : ServerProg Bool := do
  let tarPath := archiveBasePath ++ ascii ".tar"
  let made ← createTarArchive fuel files tarPath
  if !made then .ret false
  else
    let archivePath := archiveBasePath ++ ascii ".tar.lz4"
    let archiveFile : Bool ← lib (.fopen archivePath .wb)
    if !archiveFile then .ret false
    else
      let inputFile : Bool ← lib (.fopen tarPath .rb)
      if !inputFile then
        closeAll [archivePath]
        .ret false
      else
        let compressBlock := fun bytes => do
          match ← lib (.lz4CompressDefault bytes) with
          | some out =>
              let _ ← lib (.fwrite archivePath out)
              .ret true
          | none => .ret false
        let finished ← whileFread tarPath compressBlock fuel
        closeAll [tarPath, archivePath]
        if !finished then .ret false
        else
          let _ ← sys (.remove tarPath)
          .ret true

/-- The loop of `compress_with_zip`: whether every file was added. -/
def addZipEntries (compressionLevel : Int) : List Str → ServerProg Bool
  | [] => .ret true
  | filePath :: rest => do
      let source : Bool ← lib (.zipSourceFile filePath)
      if !source then .ret false
      else
        let added : Bool ← lib (.zipFileAdd filePath)
        if !added then .ret false
        else
          let _ ← lib (.zipSetFileCompression compressionLevel)
          addZipEntries compressionLevel rest

/-- `compress_with_zip` -/
def compressWithZip (files : List Str) (archiveBasePath : Str) (compressionLevel : Int) :
    ServerProg Bool := do
  let archivePath := archiveBasePath ++ ascii ".zip"
  let zip : Bool ← lib (.zipOpen archivePath)
  if !zip then .ret false
  else
    let added ← addZipEntries compressionLevel files
    let _ ← lib .zipClose
    .ret added

end ConcurrentTcp
