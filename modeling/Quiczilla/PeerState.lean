import Quiczilla.Foundation.FileStore
import Quiczilla.Foundation.Sha256
import Quiczilla.Foundation.UnixPath
import Quiczilla.Types

/-!
# The state of one `run_peer`

`run_peer` is a coordination loop and two transfer tasks that talk through
unbounded channels.  Its state is the loop's local variables, the contents of
the channels, the phase of each task and the files it can reach.

Some fields are history, recorded for what is said about runs and read by no
step: `announced` and `offeredNumber` of the loop, the `offer` of a letter or a
job (the position of the offer it belongs to among the announced ones),
`unsent`, `fileSent`, `handled`, `receipts` and `touched` (the files that were
created, truncated, opened for writing, written or renamed).
-/

namespace Quiczilla

open Foundation

abbrev Files := FileStore UnixPath

/-- `pending_send_path`. -/
structure PendingSend where
  path : String
  checksum : Bool
  resume : Bool
  deriving DecidableEq, Repr

/-- `pending_accept`. -/
structure PendingAccept where
  saveDir : String
  checksum : Bool
  resume : Bool
  deriving DecidableEq, Repr

/-- What `send_file_trigger_tx` carries. -/
structure SendJob where
  path : String
  checksum : Bool
  resumeOffset : Nat
  offer : Nat
  deriving DecidableEq, Repr

/-- What `recv_file_trigger_tx` and `pending_resume_recv` carry. -/
structure RecvJob where
  destPath : UnixPath
  fileSize : Nat
  checksum : Bool
  resumeOffset : Nat
  usePart : Bool
  offer : Nat
  deriving DecidableEq, Repr

/-- A control message on its way to the other peer. -/
structure Letter where
  message : ControlMessage
  offer : Nat
  deriving DecidableEq, Repr

/-- The locals of the coordination loop. -/
structure Coordinator where
  pendingSendPath : Option PendingSend
  offeredFileName : Option String
  offeredFileSize : Option Nat
  offeredResume : Bool
  pendingAccept : Option PendingAccept
  pendingResumeRecv : Option RecvJob
  currentPartPath : Option UnixPath
  announced : List String
  offeredNumber : Nat
  deriving DecidableEq, Repr

def Coordinator.initial : Coordinator where
  pendingSendPath := none
  offeredFileName := none
  offeredFileSize := none
  offeredResume := false
  pendingAccept := none
  pendingResumeRecv := none
  currentPartPath := none
  announced := []
  offeredNumber := 0

/-- How the disk reader of a send has ended, if it has. -/
inductive DiskReader where
  | reading
  | finished (inlineHash : String)
  | failed
  deriving DecidableEq, Repr

/-- One iteration of the file send task after the file was opened: the disk
reader at `position`, the bounded channel, and the chunk that the network
writer has taken but not yet written. -/
structure SendStream where
  job : SendJob
  totalBytes : Nat
  position : Nat
  hashed : List UInt8
  reader : DiskReader
  chunks : List (List UInt8)
  taken : Option (List UInt8)
  bytesTransferred : Nat
  deriving DecidableEq, Repr

inductive SendPhase where
  | idle
  | opening (job : SendJob)
  | streaming (stream : SendStream)
  deriving DecidableEq, Repr

/-- One iteration of the file receive task after the target was opened.
`stored` is what the disk writer has written; its hasher, when there is one,
was fed the same bytes.  `loopEnd` is `recv_success` once the network loop has
ended. -/
structure Receiving where
  job : RecvJob
  targetWritePath : UnixPath
  totalReceived : Nat
  chunks : List (List UInt8)
  stored : List UInt8
  writerAlive : Bool
  loopEnd : Option Bool
  deriving DecidableEq, Repr

/-- A stored file that waits for the sender's hash.  `content` is what
`actualHash` was computed from. -/
structure Verifying where
  job : RecvJob
  targetWritePath : UnixPath
  stored : List UInt8
  content : List UInt8
  actualHash : String
  deriving DecidableEq, Repr

inductive RecvPhase where
  | idle
  | opening (job : RecvJob)
  | receiving (receiving : Receiving)
  | verifying (verifying : Verifying)
  | stopped
  deriving DecidableEq, Repr

/-- A receive that was reported as completed. -/
structure Receipt where
  verified : Verifying
  expectedHash : String
  deriving DecidableEq, Repr

structure Peer where
  coordinator : Coordinator
  files : Files
  outbox : List Letter
  fileOut : List UInt8
  sendQueue : List SendJob
  recvQueue : List RecvJob
  hashQueue : List String
  paused : Bool
  mainEnded : Bool
  cancelled : Bool
  sender : SendPhase
  receiver : RecvPhase
  events : List PeerEvent
  unsent : List UInt8
  fileSent : List UInt8
  handled : List ControlMessage
  receipts : List Receipt
  touched : List UnixPath

/-- `run_peer` as it enters its loop. -/
def Peer.initial (files : Files) : Peer where
  coordinator := .initial
  files := files
  outbox := []
  fileOut := []
  sendQueue := []
  recvQueue := []
  hashQueue := []
  paused := false
  mainEnded := false
  cancelled := false
  sender := .idle
  receiver := .idle
  events := [.connected]
  unsent := []
  fileSent := []
  handled := []
  receipts := []
  touched := []

def Peer.send (peer : Peer) (message : ControlMessage) (offer : Nat) :
    Peer :=
  { peer with outbox := peer.outbox ++ [⟨message, offer⟩] }

def Peer.emit (peer : Peer) (event : PeerEvent) : Peer :=
  { peer with events := peer.events ++ [event] }

def Peer.triggerSend (peer : Peer) (job : SendJob) : Peer :=
  { peer with sendQueue := peer.sendQueue ++ [job] }

def Peer.triggerRecv (peer : Peer) (job : RecvJob) : Peer :=
  { peer with recvQueue := peer.recvQueue ++ [job] }

/-! ## Files -/

/-- The files after an operation on the given ones. -/
def Peer.touch (peer : Peer) (paths : List UnixPath) (files : Files) :
    Peer :=
  { peer with files := files, touched := peer.touched ++ paths }

/-- Contents of a source file, named by the string of a `SendFile` command. -/
def Peer.source (peer : Peer) (path : String) : Option (List UInt8) :=
  peer.files.content? (components path)

/-- The bytes that an offer of the path promises: the contents, or as many as
a directory is long. -/
def Peer.pledged (peer : Peer) (path : String) : List UInt8 :=
  match peer.files (components path) with
  | some (.file content) => content
  | some (.directory length) => List.replicate length 0
  | none => []

/-- `get_part_path`. -/
@[irreducible]
def getPartPath (path : UnixPath) : UnixPath :=
  withFileName path ((fileName path).getD "" ++ partialFileSuffix)

/-- `compute_prefix_hash`; reading a directory fails. -/
def computePrefixHash (files : Files) (path : UnixPath) (maxBytes : Nat) :
    Option String :=
  (files.content? path).map fun content =>
    sha256Hex (content.take maxBytes)

/-- `compute_file_sha256_blocking`. -/
def computeFileSha256 (files : Files) (path : UnixPath) : Option String :=
  (files.content? path).map sha256Hex

end Quiczilla
