/-
  File:      NanoEmbed/Tokenizer/CacheFiles.lean
  Subject:   THE CACHE DIRECTORY AND THE CALLS THAT WORK ON IT (tokenizer/disk_merge_index.cpp:
             `write_all`, `durable_close`, `unique_temp_path`, `displaced_path`, `atomic_replace`,
             `open_validated`, `create_cache`, `from_gguf`).

  A directory maps names to files, a file is a number with its bytes, and a call keeps what it opened
  by number, not by name. Each operation of a call is one step of the directory; where the operating
  system may refuse it, `Exec` has a case for that, open only while `faults` is assumed. An operation
  fails without `faults` where the directory makes it fail: a name is missing or taken, or a reader
  holds the target open.

  The bytes of a file are read in one step: nobody writes to a file that can be opened for reading
  (`Settled`, CacheProtocol.lean). `stdio` may pass on what it buffers at any write.

  Left out: the texts of `strerror`, `cache_root` and the making of the directory's own path, and how
  the tokenizer digest is computed, which is a parameter here.
-/
import NanoEmbed.Lib.Concurrent
import NanoEmbed.Tokenizer.DiskMergeIndex

namespace NanoEmbed.Tokenizer

open Concurrent

/-! ## 1. The directory -/

/-- A name in the cache directory. A call draws its temp name and its displaced name from its process
    and a serial number; `ι` are those draws. -/
inductive FileName (ι : Type) where
  | final
  | temp (i : ι)
  | displaced (i : ι)
  | other (k : Nat)
deriving DecidableEq

/-- The directory, the files, and what each call has open: the `FILE` it writes, with the bytes `stdio`
    has not passed on, and the descriptor it reads. -/
structure FileSystem (ι : Type) where
  dir : FileName ι → Option Nat
  content : Nat → List UInt8
  next : Nat
  writing : ι → Option (Nat × List UInt8)
  reading : ι → Option Nat

/-- The operations. `openFinal again` opens the content-addressed name, `again` after the call tried to
    create the file. -/
inductive FileOp where
  | createDirectories
  | openFinal (again : Bool)
  | readAll
  | closeRead
  | createTemp
  | write (data : List UInt8)
  | flush
  | sync
  | close
  | rename
  | replace
  | displace
  | moveIn
  | restore
  | deleteDisplaced
  | removeTemp

/-- What a move on Windows reports. -/
inductive MoveResult where
  | ok
  | denied
  | missing
  | failed
deriving DecidableEq

/-- The reply of an operation: whether it succeeded, the bytes read, the count written. -/
def FileOp.Reply : FileOp → Type
  | .readAll => Option CacheFile
  | .write _ => Nat
  | .replace | .displace => MoveResult
  | .closeRead | .restore | .deleteDisplaced | .removeTemp => Unit
  | _ => Bool

variable {ι : Type} [DecidableEq ι]

def FileSystem.setDir (s : FileSystem ι) (name : FileName ι) (entry : Option Nat) : FileSystem ι :=
  { s with dir := Function.update s.dir name entry }

def FileSystem.setContent (s : FileSystem ι) (n : Nat) (bytes : List UInt8) : FileSystem ι :=
  { s with content := Function.update s.content n bytes }

def FileSystem.setWriting (s : FileSystem ι) (i : ι) (file : Option (Nat × List UInt8)) :
    FileSystem ι := { s with writing := Function.update s.writing i file }

def FileSystem.setReading (s : FileSystem ι) (i : ι) (file : Option Nat) : FileSystem ι :=
  { s with reading := Function.update s.reading i file }

/-- `stdio` passes the first `m` bytes of its buffer on to file `n`. -/
def FileSystem.drain (s : FileSystem ι) (i : ι) (n : Nat) (buffer : List UInt8) (m : Nat) :
    FileSystem ι :=
  (s.setContent n (s.content n ++ buffer.take m)).setWriting i (some (n, buffer.drop m))

/-- **What an operation of call `i` does.** A reader that is about to close may be gone when the move
    looks, so a replacement may also succeed where a call holds the target. -/
inductive Exec (faults : Prop) (i : ι) (s : FileSystem ι) :
    (op : FileOp) → op.Reply → FileSystem ι → Prop where
  | createDirectories : Exec faults i s .createDirectories true s
  | createDirectoriesFails (h : faults) : Exec faults i s .createDirectories false s
  | openFinal (again : Bool) (n : Nat) (h : s.dir .final = some n) :
      Exec faults i s (.openFinal again) true (s.setReading i (some n))
  | openFinalMissing (again : Bool) (h : s.dir .final = none) :
      Exec faults i s (.openFinal again) false s
  | openFinalFails (again : Bool) (h : faults) : Exec faults i s (.openFinal again) false s
  | readAll (n : Nat) (h : s.reading i = some n) (hlen : (s.content n).length ≤ int64Max) :
      Exec faults i s .readAll (some ⟨s.content n, hlen⟩) s
  | readAllFails (h : faults ∨ ∀ n, s.reading i = some n → int64Max < (s.content n).length) :
      Exec faults i s .readAll none s
  | closeRead : Exec faults i s .closeRead () (s.setReading i none)
  | createTemp (h : s.dir (.temp i) = none) :
      Exec faults i s .createTemp true
        ((({ s with next := s.next + 1 }.setDir (.temp i) (some s.next)).setContent s.next
          []).setWriting i (some (s.next, [])))
  | createTempFails (h : faults ∨ s.dir (.temp i) ≠ none) : Exec faults i s .createTemp false s
  | write (data : List UInt8) (n : Nat) (buffer : List UInt8) (k m : Nat)
      (h : s.writing i = some (n, buffer)) (hk : k ≤ data.length) (hpos : 0 < k) :
      Exec faults i s (.write data) k (s.drain i n (buffer ++ data.take k) m)
  | writeFails (data : List UInt8) (n : Nat) (buffer : List UInt8) (m : Nat)
      (h : s.writing i = some (n, buffer)) (hf : faults) :
      Exec faults i s (.write data) (0 : Nat) (s.drain i n buffer m)
  | flush (n : Nat) (buffer : List UInt8) (h : s.writing i = some (n, buffer)) :
      Exec faults i s .flush true (s.drain i n buffer buffer.length)
  | flushFails (n : Nat) (buffer : List UInt8) (m : Nat) (h : s.writing i = some (n, buffer))
      (hf : faults) : Exec faults i s .flush false (s.drain i n buffer m)
  | sync : Exec faults i s .sync true s
  | syncFails (h : faults) : Exec faults i s .sync false s
  | close (n : Nat) (buffer : List UInt8) (h : s.writing i = some (n, buffer)) :
      Exec faults i s .close true ((s.drain i n buffer buffer.length).setWriting i none)
  | closeFails (n : Nat) (buffer : List UInt8) (m : Nat) (h : s.writing i = some (n, buffer))
      (hf : faults) : Exec faults i s .close false ((s.drain i n buffer m).setWriting i none)
  | rename (n : Nat) (h : s.dir (.temp i) = some n) :
      Exec faults i s .rename true ((s.setDir .final (some n)).setDir (.temp i) none)
  | renameFails (h : faults ∨ s.dir (.temp i) = none) : Exec faults i s .rename false s
  | replace (n : Nat) (h : s.dir (.temp i) = some n) :
      Exec faults i s .replace .ok ((s.setDir .final (some n)).setDir (.temp i) none)
  | replaceDenied (h : faults ∨ ∃ j m, s.reading j = some m ∧ s.dir .final = some m) :
      Exec faults i s .replace .denied s
  | replaceFails (h : faults ∨ s.dir (.temp i) = none) : Exec faults i s .replace .failed s
  | displace (m : Nat) (h : s.dir .final = some m) (hfree : s.dir (.displaced i) = none) :
      Exec faults i s .displace .ok ((s.setDir (.displaced i) (some m)).setDir .final none)
  | displaceMissing (h : s.dir .final = none) : Exec faults i s .displace .missing s
  | displaceFails (h : faults ∨ s.dir (.displaced i) ≠ none) :
      Exec faults i s .displace .failed s
  | moveIn (n : Nat) (h : s.dir (.temp i) = some n) (hfree : s.dir .final = none) :
      Exec faults i s .moveIn true ((s.setDir .final (some n)).setDir (.temp i) none)
  | moveInFails (h : faults ∨ s.dir .final ≠ none ∨ s.dir (.temp i) = none) :
      Exec faults i s .moveIn false s
  | restore (m : Nat) (h : s.dir (.displaced i) = some m) (hfree : s.dir .final = none) :
      Exec faults i s .restore () ((s.setDir .final (some m)).setDir (.displaced i) none)
  | restoreFails (h : faults ∨ s.dir .final ≠ none ∨ s.dir (.displaced i) = none) :
      Exec faults i s .restore () s
  | deleteDisplaced : Exec faults i s .deleteDisplaced () (s.setDir (.displaced i) none)
  | deletePending : Exec faults i s .deleteDisplaced () s
  | removeTemp : Exec faults i s .removeTemp () (s.setDir (.temp i) none)
  | removeTempFails (h : faults) : Exec faults i s .removeTemp () s

/-- A process that dies closes what it had open. -/
def FileSystem.crash (s : FileSystem ι) (i : ι) : FileSystem ι :=
  (s.setWriting i none).setReading i none

/-! ## 2. The calls -/

/-- A program of file operations. -/
abbrev FileProg := Prog FileOp FileOp.Reply

/-- One operation. -/
abbrev perform (o : FileOp) : FileProg o.Reply := Prog.op o

/-- The two variants of `atomic_replace`. -/
inductive Platform where
  | posix
  | windows
deriving DecidableEq

/-- What the calls are made with: the tokenizer's arrays in the sizes `SpmBpeTokenizer::from_gguf`
    checks, their digest, and the path the digest names. -/
structure CallConfig where
  platform : Platform
  path : String
  tokens : List (List UInt8)
  merges : List (List UInt8)
  sourceDigest : Sha256Digest
  tokens_le : tokens.length ≤ int32Max
  merges_le : merges.length ≤ int32Max

/-- `system_message`. -/
def systemMessage (operation path : String) : String :=
  operation ++ " '" ++ path ++ "' failed: "

variable (c : CallConfig)

/-- `open_validated` gives up: the descriptor is closed. -/
def rejectFile (reason : String) : FileProg (Except String DiskMergeIndex) := do
  let _ : Unit ← perform .closeRead
  pure (.error reason)

/-- The `try` block of `open_validated`, on what it read. -/
def CallConfig.validateFile : Option CacheFile → FileProg (Except String DiskMergeIndex)
  | none => rejectFile (systemMessage "read BPE merge cache" c.path)
  | some file =>
      match Tokenizer.openValidated c.path file c.sourceDigest c.tokens.length with
      | .ok index => pure (.ok index)
      | .error reason => rejectFile reason

/-- `open_validated`: the index, or the reason. -/
def CallConfig.openValidated (again : Bool) : FileProg (Except String DiskMergeIndex) := do
  let opened : Bool ← perform (.openFinal again)
  if opened then
    let file : Option CacheFile ← perform .readAll
    c.validateFile file
  else pure (.error (systemMessage "open BPE merge cache" c.path))

/-- An exception on its way to the handler of `create_cache`: `isOpen` says whether `file` is set. -/
structure Thrown where
  exception : Exc
  isOpen : Bool

/-- An operation that throws where it reports failure. -/
def orThrow (p : FileProg Bool) (what : String) (isOpen : Bool) : FileProg (Except Thrown Unit) :=
  p >>= fun ok =>
    pure (if ok then .ok () else .error ⟨.tokenizerError what, isOpen⟩)

/-- `write_all`; each turn writes at least one byte. -/
def writeAll (path : String) : Nat → List UInt8 → FileProg (Except Thrown Unit)
  | _, [] => pure (.ok ())
  | 0, _ :: _ => pure (.ok ())
  | turns + 1, data@(_ :: _) => do
      let written : Nat ← perform (.write data)
      if written = 0 then
        pure (.error ⟨.tokenizerError ("writing BPE merge cache '" ++ path ++ "' failed"), true⟩)
      else writeAll path turns (data.drop written)

/-- `durable_close`. -/
def durableClose (path : String) : FileProg (Except Thrown Unit) :=
  (orThrow (perform .flush) (systemMessage "flush BPE merge cache" path) true).andThen fun _ =>
    (orThrow (perform .sync) (systemMessage "sync BPE merge cache" path) true).andThen fun _ =>
      orThrow (perform .close) (systemMessage "close BPE merge cache" path) false

/-- An exception of `atomic_replace`. -/
def replaceThrow (what : String) : FileProg (Except Thrown Unit) :=
  pure (.error ⟨.tokenizerError what, false⟩)

/-- `atomic_replace`, with `displaced_path` on Windows. -/
def CallConfig.atomicReplace : FileProg (Except Thrown Unit) :=
  match c.platform with
  | .posix => orThrow (perform .rename) (systemMessage "replace BPE merge cache" c.path) false
  | .windows => do
      let replaced : MoveResult ← perform .replace
      match replaced with
      | .ok => pure (.ok ())
      | .missing | .failed => replaceThrow (systemMessage "replace BPE merge cache" c.path)
      | .denied => do
          let displaced : MoveResult ← perform .displace
          match displaced with
          | .denied | .failed => replaceThrow (systemMessage "displace BPE merge cache" c.path)
          | .missing => do
              let moved : Bool ← perform .moveIn
              if moved then pure (.ok ())
              else replaceThrow (systemMessage "replace BPE merge cache" c.path)
          | .ok => do
              let moved : Bool ← perform .moveIn
              if moved then do
                let _ : Unit ← perform .deleteDisplaced
                pure (.ok ())
              else do
                let _ : Unit ← perform .restore
                replaceThrow (systemMessage "replace BPE merge cache" c.path)

/-- The `try` block of `create_cache`: the header, then the payload, into the temp file. -/
def CallConfig.publish (image : List UInt8) : FileProg (Except Thrown Unit) :=
  let temp := c.path ++ ".tmp"
  (orThrow (perform .createTemp) (systemMessage "create BPE merge cache" temp) false).andThen fun _ =>
    (writeAll temp kPageSize (image.take kPageSize)).andThen fun _ =>
      (writeAll temp image.length (image.drop kPageSize)).andThen fun _ =>
        (durableClose temp).andThen fun _ => c.atomicReplace

/-- The handler of `create_cache`, for everything its `try` block throws. -/
def createCacheHandler : Except Thrown Unit → FileProg (Except Exc Unit)
  | .ok () => pure (.ok ())
  | .error thrown => do
      if thrown.isOpen then
        let _ : Bool ← perform .close
        let _ : Unit ← perform .removeTemp
        pure (.error thrown.exception)
      else
        let _ : Unit ← perform .removeTemp
        pure (.error thrown.exception)

/-- `create_cache`. -/
def CallConfig.createCache : FileProg (Except Exc Unit) :=
  match Tokenizer.createCache c.tokens c.merges c.sourceDigest with
  | .error e => pure (.error e)
  | .ok image => c.publish image >>= createCacheHandler

/-- How a call ends. -/
inductive CallResult where
  | returned (index : DiskMergeIndex)
  | threw (e : Exc)
  | crashed

/-- The end of `from_gguf` once `create_cache` returned or threw: the second opening. The exception of
    `create_cache` is forgotten where another call's file is found. -/
def CallConfig.openCreated : Except Exc Unit → FileProg CallResult
  | .error creationError => do
      let retry ← c.openValidated true
      match retry with
      | .ok index => pure (.returned index)
      | .error _ => pure (.threw creationError)
  | .ok () => do
      let second ← c.openValidated true
      match second with
      | .ok index => pure (.returned index)
      | .error reason => pure (.threw
          (.tokenizerError ("generated BPE merge cache failed validation: " ++ reason)))

/-- `DiskMergeIndex::from_gguf`. -/
def CallConfig.fromGguf : FileProg CallResult := do
  let made : Bool ← perform .createDirectories
  if made then
    let first ← c.openValidated false
    match first with
    | .ok index => pure (.returned index)
    | .error _ => c.createCache >>= c.openCreated
  else pure (.threw (.tokenizerError
    ("cannot create BPE merge cache directory '" ++ c.path ++ "': ")))

/-- The directory and the calls, before any of them starts. -/
def CallConfig.start (s : FileSystem ι) : System (FileSystem ι) ι FileOp FileOp.Reply CallResult :=
  ⟨s, fun _ => c.fromGguf⟩

/-- A call stops where its process dies. -/
def Crashes (faults : Prop) (i : ι) (s : FileSystem ι) (out : CallResult) (s' : FileSystem ι) : Prop :=
  faults ∧ out = .crashed ∧ s' = s.crash i

end NanoEmbed.Tokenizer
