import Quiczilla.DirectoryFrames
import Quiczilla.Types

/-!
# Sending a directory

`send_directory` walks the source with an explicit stack of directory
iterators and writes a frame for every directory and every regular file as it
meets them.  A label takes one turn of the loop; `fault` stands for any error
of the file system or of the writer, all of which end the send.  The canonical
path of the source is an argument of the label; only an error shows it.

`frames` records the frames whose bytes were written; the program does not
keep them.  A file that fails leaves a part of its frame behind, which is not
recorded.
-/

namespace Quiczilla

open Foundation

/-- The name of a directory entry: `none` when it is not UTF-8. -/
structure EntryName where
  text : Option String
  legal : ∀ name, text = some name → IsNormalName name

/-- What `read_dir` yields for a directory, in its order, with what lies below
the directories.  A file has the length that its metadata gives and the bytes
that reading it gives. -/
inductive SourceEntries where
  | done
  | file
      (name : EntryName) (size : Nat) (content : List UInt8)
      (rest : SourceEntries)
  | directory (name : EntryName) (below rest : SourceEntries)
  | symlink (name : EntryName) (rest : SourceEntries)
  | special (name : EntryName) (rest : SourceEntries)

inductive StorageProfile where
  | hdd
  | auto
  | nvme
  deriving DecidableEq, Repr

def StorageProfile.packTargetBytes : StorageProfile → Nat
  | .hdd => 16 * 1024 * 1024
  | .auto => 32 * 1024 * 1024
  | .nvme => 64 * 1024 * 1024

/-- The path below the source whose last name this is, as text. -/
def relativeText (parents : List String) (name : String) : String :=
  String.ofList
    (joinSegments ((parents ++ [name]).map String.toList))

/-- `replace('\\', "/")`. -/
def wireText (value : String) : String :=
  String.ofList
    (value.toList.map fun character =>
      if character = '\\' then '/' else character)

/-- `path_to_wire`, on a path that is UTF-8. -/
def pathToWire (value : String) : Except String String :=
  match validateRelativePath .unix (wireText value) with
  | .error reason => .error reason
  | .ok () => .ok (wireText value)

/-- `path_to_wire` on the path of an entry. -/
def entryToWire (parents : List String) (name : EntryName) :
    Except String (String × String) :=
  match name.text with
  | none =>
      .error "directory transfer currently requires UTF-8 paths"
  | some text =>
      match pathToWire (relativeText parents text) with
      | .error reason => .error reason
      | .ok wire => .ok (text, wire)

/-- The copy loop: the bytes it writes while `remaining` are to be read.  A
read takes at least one byte and at most a buffer; `sizes` resolves how
many. -/
def copyContent (sizes : Nat → Nat) :
    Nat → Nat → List UInt8 → Option (List UInt8)
  | _, 0, _ => some []
  | 0, _ + 1, _ => none
  | fuel + 1, remaining + 1, content =>
      match
        content.take
          (max 1
            (min (sizes fuel) (min (remaining + 1) fileChunkSize))) with
      | [] => none
      | byte :: read =>
          (copyContent sizes fuel (remaining - read.length)
              (content.drop (read.length + 1))).map
            ((byte :: read) ++ ·)

inductive DirectorySendPhase where
  | opening
  | walking
  | done
  | failed (reason : String)
  deriving DecidableEq, Repr

structure DirectorySender where
  checksum : Bool
  target : Nat
  stack : List (List String × SourceEntries)
  written : List UInt8
  stats : DirectoryTransferStats
  packBytes : Nat
  packNumber : Nat
  phase : DirectorySendPhase
  frames : List DirectoryFrame

namespace DirectorySender

def start
    (entries : SourceEntries) (profile : StorageProfile)
    (checksum : Bool) : DirectorySender where
  checksum := checksum
  target := profile.packTargetBytes
  stack := [([], entries)]
  written := []
  stats := ⟨0, 1, 0, 1⟩
  packBytes := 0
  packNumber := 0
  phase := .opening
  frames := []

def fail (sender : DirectorySender) (reason : String) :
    DirectorySender :=
  { sender with phase := .failed reason }

/-- Write a frame. -/
def write (sender : DirectorySender) (frame : DirectoryFrame) :
    DirectorySender :=
  { sender with
    written := sender.written ++ frame.encode
    frames := sender.frames ++ [frame] }

/-- START, and the first pack. -/
def openStream (sender : DirectorySender) (rootName : EntryName) :
    DirectorySender :=
  match rootName.text with
  | none =>
      sender.fail "directory transfer currently requires UTF-8 paths"
  | some text =>
      match pathToWire text with
      | .error reason => sender.fail reason
      | .ok wire =>
          write
            { sender with
              written := sender.written ++ encodeStart wire
              phase := .walking }
            (.packStart sender.packNumber)

/-- `u64::saturating_add`. -/
def saturatingAdd (first second : Nat) : Nat :=
  min (first + second) (2 ^ 64 - 1)

/-- Close the pack that the file would overfill and open the next one. -/
def rollPack (sender : DirectorySender) (fileSize : Nat) :
    DirectorySender :=
  if 0 < sender.packBytes ∧
      sender.target < saturatingAdd sender.packBytes fileSize then
    write
      { sender.write .packEnd with
        packNumber := (sender.packNumber + 1) % 2 ^ 64
        stats :=
          { sender.stats with
            packs := (sender.stats.packs + 1) % 2 ^ 64 }
        packBytes := 0 }
      (.packStart ((sender.packNumber + 1) % 2 ^ 64))
  else sender

/-- The frame of a file, of which `size` bytes were copied. -/
def sentFile (sender : DirectorySender) (wire : String) (size : Nat)
    (content : List UInt8) : DirectorySender :=
  { sender.write
      (.file wire content (if sender.checksum then 1 else 0)
        (if sender.checksum then sha256 content else [])) with
    stats :=
      { sender.stats with
        files := (sender.stats.files + 1) % 2 ^ 64
        bytes := (sender.stats.bytes + size) % 2 ^ 64 }
    packBytes := (sender.packBytes + size) % 2 ^ 64 }

/-- One turn of the loop over the stack, in the directory with the canonical
path `source`. -/
def turn (sender : DirectorySender) (source : String) (sizes : Nat → Nat) :
    DirectorySender :=
  match sender.stack with
  | [] =>
      { sender.write .packEnd with
        written :=
          (sender.write .packEnd).written ++ encodeEnd sender.stats
        phase := .done }
  | (_, .done) :: below => { sender with stack := below }
  | (parents, .symlink _ rest) :: below =>
      { sender with stack := (parents, rest) :: below }
  | (parents, .special name rest) :: below =>
      match entryToWire parents name with
      | .error reason => sender.fail reason
      | .ok _ => { sender with stack := (parents, rest) :: below }
  | (parents, .directory name inside rest) :: below =>
      match entryToWire parents name with
      | .error reason => sender.fail reason
      | .ok (text, wire) =>
          { sender.write (.directory wire) with
            stack :=
              (parents ++ [text], inside) :: (parents, rest) :: below
            stats :=
              { sender.stats with
                directories :=
                  (sender.stats.directories + 1) % 2 ^ 64 } }
  | (parents, .file name size content rest) :: below =>
      match entryToWire parents name with
      | .error reason => sender.fail reason
      | .ok (text, wire) =>
          match copyContent sizes size size content with
          | none =>
              (sender.rollPack size).fail
                ("source file changed while being transferred: " ++
                  (source ++ "/" ++ relativeText parents text))
          | some copied =>
              sentFile
                { sender.rollPack size with
                  stack := (parents, rest) :: below }
                wire size copied

/-- An error between the frames of packs in front of a file and the end of the
file. -/
def failInFile (sender : DirectorySender) (reason : String) :
    DirectorySender :=
  match sender.stack with
  | (_, .file _ size _ _) :: _ => (sender.rollPack size).fail reason
  | _ => sender.fail reason

end DirectorySender

inductive DirectorySendLabel where
  | openStream
  | turn (source : String) (sizes : Nat → Nat)
  | fault (reason : String)
  | faultInFile (reason : String)

def directorySendStep (rootName : EntryName) (sender : DirectorySender) :
    DirectorySendLabel → Option DirectorySender
  | .openStream =>
      if sender.phase = .opening then some (sender.openStream rootName)
      else none
  | .turn source sizes =>
      if sender.phase = .walking then some (sender.turn source sizes)
      else none
  | .fault reason =>
      if sender.phase = .opening ∨ sender.phase = .walking then
        some (sender.fail reason)
      else none
  | .faultInFile reason =>
      if sender.phase = .walking then some (sender.failInFile reason)
      else none

end Quiczilla
