import Quiczilla.DirectoryFrames
import Quiczilla.Foundation.LinkTree
import Quiczilla.Types

/-!
# Receiving a directory

`receive_directory` reads the frames one after the other and applies each to
the file tree before it reads the next one.  A label takes the next step; its
arguments resolve what the system decides: whether an operation fails, and how
many bytes a read delivers.

`touched` records the locations on which directories and files were created,
written, renamed or removed, and `named` those that the file frames name; the
program keeps neither.
-/

namespace Quiczilla

open Foundation

/-- The first part of a text, cut between characters, of at most so many
bytes. -/
def takeBytes : Nat → List Char → List Char
  | _, [] => []
  | limit, character :: rest =>
      if character.utf8Size ≤ limit then
        character :: takeBytes (limit - character.utf8Size) rest
      else []

/-- The name that a file has while it is received. -/
def stagingName (name : String) : String :=
  String.ofList
    ('.' :: (takeBytes 240 name.toList ++ ".quic-part".toList))

/-- `Path::parent` of an accepted relative path, as text. -/
def parentText (relative : String) : String :=
  String.ofList (joinSegments (segments relative.toList).dropLast)

/-- The location that `safe_child` gives. -/
def childLocation (root : Location) (relative : String) : Location :=
  root ++ (Platform.unix.parse relative).normalNames

/-- What a file frame announces. -/
structure FileHead where
  relative : String
  size : Nat
  flag : UInt8
  deriving DecidableEq, Repr

/-- Where the bytes of a file are until it is complete. -/
def stagingLocation (parent : Location) (head : FileHead) : Location :=
  parent ++
    [stagingName
      (((Platform.unix.parse head.relative).normalNames.getLast?).getD "")]

/-- What the other end has aborted; it is the error of every read and write
behind it. -/
inductive StreamAbort where
  | receive
  | send
  deriving DecidableEq, Repr

def StreamAbort.text : StreamAbort → String
  | .receive => "Peer aborted receive"
  | .send => "Peer aborted send"

inductive DirectoryReceivePhase where
  | opening
  | creatingRoot (root : Location)
  | framing (root : Location)
  | making
      (root current : Location) (name : String) (rest : List String)
      (file : Option FileHead)
  | placing (root parent : Location) (file : FileHead)
  | copying
      (root : Location) (file : FileHead) (staging opened : Location)
      (copied : List UInt8)
  | renaming (root : Location) (file : FileHead) (staging : Location)
  | done
  | failed (reason : String)
  deriving DecidableEq, Repr

structure DirectoryReceiver where
  input : List UInt8
  tree : FileTree
  stats : DirectoryTransferStats
  phase : DirectoryReceivePhase
  touched : List Location
  named : List Location

namespace DirectoryReceiver

def start (tree : FileTree) (input : List UInt8) : DirectoryReceiver where
  input := input
  tree := tree
  stats := .start
  phase := .opening
  touched := []
  named := []

def fail (receiver : DirectoryReceiver) (reason : String) :
    DirectoryReceiver :=
  { receiver with phase := .failed reason }

/-- An operation on these locations left this tree. -/
def act
    (receiver : DirectoryReceiver) (tree : FileTree)
    (locations : List Location) : DirectoryReceiver :=
  { receiver with
    tree := tree
    touched := receiver.touched ++ locations }

/-- The START frame. -/
def openStream (receiver : DirectoryReceiver) (base : Location) :
    DirectoryReceiver :=
  match readStart receiver.input with
  | .error reason => receiver.fail reason
  | .ok (rootName, input) =>
      match validateRelativePath .unix rootName with
      | .error reason => receiver.fail reason
      | .ok () =>
          { receiver with
            input := input
            phase := .creatingRoot (childLocation base rootName) }

/-- The test of the root behind `create_dir_all`. -/
def inspectRoot
    (receiver : DirectoryReceiver) (root : Location) (lookupFails : Bool) :
    DirectoryReceiver :=
  match lookupFails, receiver.tree.symlinkMetadata root with
  | false, .ok .directory => { receiver with phase := .framing root }
  | false, .ok _ =>
      receiver.fail "directory transfer root is not a real directory"
  | _, _ => receiver.fail "input/output error"

/-- `create_safe_directory(root, None)`. -/
def createRoot
    (receiver : DirectoryReceiver) (root : Location)
    (fails : Location → Bool) (lookupFails : Bool) : DirectoryReceiver :=
  match receiver.tree.createDirAll fails root with
  | ⟨tree, created, .error _⟩ =>
      (receiver.act tree created).fail "input/output error"
  | ⟨tree, created, .ok ()⟩ =>
      (receiver.act tree created).inspectRoot root lookupFails

/-- The next directory to make below `current`, or what comes after the last
one. -/
def enter
    (receiver : DirectoryReceiver) (root current : Location)
    (names : List String) (file : Option FileHead) : DirectoryReceiver :=
  match names, file with
  | name :: rest, _ =>
      { receiver with phase := .making root current name rest file }
  | [], some head => { receiver with phase := .placing root current head }
  | [], none =>
      { receiver with
        stats :=
          { receiver.stats with
            directories := (receiver.stats.directories + 1) % 2 ^ 64 }
        phase := .framing root }

/-- `create_safe_directory(root, Some(relative))`, up to its loop. -/
def createSafeDirectory
    (receiver : DirectoryReceiver) (root : Location) (relative : String)
    (file : Option FileHead) : DirectoryReceiver :=
  match validateRelativePath .unix relative with
  | .error reason => receiver.fail reason
  | .ok () =>
      receiver.enter root root (Platform.unix.parse relative).normalNames file

/-- A file frame, up to the creation of its parent. -/
def beginFile
    (receiver : DirectoryReceiver) (root : Location) (head : FileHead) :
    DirectoryReceiver :=
  match validateRelativePath .unix head.relative with
  | .error reason => receiver.fail reason
  | .ok () =>
      if parentText head.relative = "" then
        receiver.enter root root [] (some head)
      else
        receiver.createSafeDirectory root (parentText head.relative)
          (some head)

/-- The next frame, without the content of a file. -/
def readFrame (receiver : DirectoryReceiver) (root : Location) :
    DirectoryReceiver :=
  match readFrameHead receiver.input with
  | .error reason => receiver.fail reason
  | .ok (.directory relative, input) =>
      createSafeDirectory { receiver with input := input } root relative
        none
  | .ok (.packStart _, input) =>
      { receiver with
        input := input
        stats :=
          { receiver.stats with
            packs := (receiver.stats.packs + 1) % 2 ^ 64 } }
  | .ok (.packEnd, input) => { receiver with input := input }
  | .ok (.file relative size flag, input) =>
      beginFile
        { receiver with
          input := input
          named := receiver.named ++ [childLocation root relative] }
        root ⟨relative, size, flag⟩
  | .ok (.finish files directories bytes, input) =>
      if files ≠ receiver.stats.files ∨
          directories ≠ receiver.stats.directories ∨
          bytes ≠ receiver.stats.bytes then
        fail { receiver with input := input }
          "directory transfer totals do not match received data"
      else { receiver with input := input, phase := .done }

/-- One turn of the loop in `create_safe_directory`. -/
def makeDirectory
    (receiver : DirectoryReceiver) (root current : Location)
    (name : String) (rest : List String) (file : Option FileHead) :
    DirectoryReceiver :=
  match receiver.tree.symlinkMetadata (current ++ [name]) with
  | .ok (.symlink _) =>
      receiver.fail "refusing destination symlink in directory transfer"
  | .ok (.file _) =>
      receiver.fail "destination directory component is not a directory"
  | .ok .directory => receiver.enter root (current ++ [name]) rest file
  | .error .notFound =>
      match receiver.tree.createDir (current ++ [name]) with
      | .error _ => receiver.fail "input/output error"
      | .ok (location, tree) =>
          (receiver.act tree [location]).enter root (current ++ [name]) rest
            file
  | .error _ => receiver.fail "input/output error"

/-- The check of the destination and `File::create` of the staging file.  An
error of the check is ignored. -/
def createStaging
    (receiver : DirectoryReceiver) (root parent : Location)
    (head : FileHead) (lookupFails createFails : Bool) :
    DirectoryReceiver :=
  match lookupFails,
    receiver.tree.symlinkMetadata (childLocation root head.relative) with
  | false, .ok (.symlink _) =>
      receiver.fail "refusing to replace destination symlink"
  | _, _ =>
      if createFails then receiver.fail "input/output error"
      else
        match receiver.tree.createFile (stagingLocation parent head) with
        | .error _ => receiver.fail "input/output error"
        | .ok (location, tree) =>
            { receiver.act tree [location] with
              phase :=
                .copying root head (stagingLocation parent head) location
                  [] }

/-- One turn of the copy loop.  A read delivers at most `limit` bytes; a write
that fails may leave the first of them in the file. -/
def copyChunk
    (receiver : DirectoryReceiver) (root : Location) (head : FileHead)
    (staging opened : Location) (copied : List UInt8) (limit : Nat)
    (written : Option Nat) : DirectoryReceiver :=
  let chunk :=
    receiver.input.take
      (max 1 (min limit (min (head.size - copied.length) fileChunkSize)))
  if chunk = [] then
    receiver.fail
      ("directory transfer ended inside file " ++ head.relative)
  else
    match written with
    | some count =>
        (receiver.act
            (receiver.tree.appendFile opened (chunk.take count))
            [opened]).fail
          "input/output error"
    | none =>
        { receiver.act (receiver.tree.appendFile opened chunk) [opened] with
          input := receiver.input.drop chunk.length
          phase := .copying root head staging opened (copied ++ chunk) }

/-- `let _ = remove_file(staging)`. -/
def discard
    (receiver : DirectoryReceiver) (staging : Location)
    (removeFails : Bool) : DirectoryReceiver :=
  match removeFails, receiver.tree.removeFile staging with
  | false, .ok (location, tree) => receiver.act tree [location]
  | _, _ => receiver

/-- Behind the copy loop: the digest. -/
def finishContent
    (receiver : DirectoryReceiver) (root : Location) (head : FileHead)
    (staging : Location) (copied : List UInt8)
    (flushFails removeFails : Bool) : DirectoryReceiver :=
  if flushFails then receiver.fail "input/output error"
  else if head.flag = 0 then
    { receiver with phase := .renaming root head staging }
  else
    match readExact 32 receiver.input with
    | .error reason => receiver.fail reason
    | .ok (expected, input) =>
        if sha256 copied = expected then
          { receiver with
            input := input
            phase := .renaming root head staging }
        else
          (discard { receiver with input := input } staging removeFails).fail
            (checksumMismatch head.relative)

def renameStaging
    (receiver : DirectoryReceiver) (root : Location) (head : FileHead)
    (staging : Location) (fails : Bool) : DirectoryReceiver :=
  match fails,
    receiver.tree.rename staging (childLocation root head.relative) with
  | false, .ok (source, target, tree) =>
      { receiver.act tree [source, target] with
        stats :=
          { receiver.stats with
            files := (receiver.stats.files + 1) % 2 ^ 64
            bytes := (receiver.stats.bytes + head.size) % 2 ^ 64 }
        phase := .framing root }
  | _, _ => receiver.fail "input/output error"

/-- Whether the next step reads from the stream. -/
def reads (receiver : DirectoryReceiver) : Bool :=
  match receiver.phase with
  | .opening => true
  | .framing _ => true
  | .copying _ head _ _ copied =>
      copied.length < head.size || head.flag != 0
  | _ => false

end DirectoryReceiver

inductive DirectoryReceiveLabel where
  | openStream
  | createRoot (fails : Location → Bool) (lookupFails : Bool)
  | readFrame
  | makeDirectory (fails : Bool)
  | createStaging (lookupFails createFails : Bool)
  | copyChunk (limit : Nat) (written : Option Nat)
  | finishContent (flushFails removeFails : Bool)
  | renameStaging (fails : Bool)
  | aborted (abort : StreamAbort)

open DirectoryReceiver in
def directoryReceiveStep (base : Location) (receiver : DirectoryReceiver)
    (label : DirectoryReceiveLabel) : Option DirectoryReceiver :=
  match receiver.phase, label with
  | .opening, .openStream => some (openStream receiver base)
  | .creatingRoot root, .createRoot fails lookupFails =>
      some (createRoot receiver root fails lookupFails)
  | .framing root, .readFrame => some (readFrame receiver root)
  | .making root current name rest file, .makeDirectory fails =>
      if fails then some (receiver.fail "input/output error")
      else some (makeDirectory receiver root current name rest file)
  | .placing root parent head, .createStaging lookupFails createFails =>
      some (createStaging receiver root parent head lookupFails createFails)
  | .copying root head staging opened copied, .copyChunk limit written =>
      if copied.length < head.size then
        some
          (copyChunk receiver root head staging opened copied limit written)
      else none
  | .copying root head staging _ copied,
      .finishContent flushFails removeFails =>
      if copied.length < head.size then none
      else
        some
          (finishContent receiver root head staging copied flushFails
            removeFails)
  | .renaming root head staging, .renameStaging fails =>
      some (renameStaging receiver root head staging fails)
  | _, .aborted abort =>
      if receiver.reads then some (receiver.fail abort.text) else none
  | _, _ => none

end Quiczilla
